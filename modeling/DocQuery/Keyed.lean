/-!
# Keyed lists — maps that remember the order of their keys

A keyed list holds each key once, in the order of first insertion.  Setting a present key keeps its place.  There are
two removals: `erase` closes the gap, `swapErase` moves the last entry into it.
-/
namespace DocQuery

/-- Entries in insertion order. -/
abbrev Keyed (κ α : Type) := List (κ × α)

namespace Keyed

variable {κ α : Type} [DecidableEq κ]

/-- The value under a key: that of the first entry which carries it. -/
def get? : Keyed κ α → κ → Option α
  | [], _ => none
  | (k, v) :: r, key => if k = key then some v else get? r key

def has (m : Keyed κ α) (key : κ) : Bool := (get? m key).isSome

/-- Overwrites in place, or appends a new entry. -/
def set : Keyed κ α → κ → α → Keyed κ α
  | [], key, v => [(key, v)]
  | (k, w) :: r, key, v => if k = key then (k, v) :: r else (k, w) :: set r key v

/-- Removes the first entry under a key; the others keep their order. -/
def erase : Keyed κ α → κ → Keyed κ α
  | [], _ => []
  | (k, v) :: r, key => if k = key then r else (k, v) :: erase r key

def lastFirst : Keyed κ α → Keyed κ α
  | [] => []
  | [e] => [e]
  | a :: b :: r => (b :: r).getLast (List.cons_ne_nil b r) :: (a :: b :: r).dropLast

/-- Removes the first entry under a key and fills its place with the last entry. -/
def swapErase : Keyed κ α → κ → Keyed κ α
  | [], _ => []
  | (k, v) :: r, key => if k = key then lastFirst r else (k, v) :: swapErase r key

/-- Sets many entries, the later ones winning. -/
def setAll (m : Keyed κ α) (entries : List (κ × α)) : Keyed κ α := entries.foldl (fun m e => set m e.1 e.2) m

def ofList (entries : List (κ × α)) : Keyed κ α := setAll [] entries

def keys (m : Keyed κ α) : List κ := m.map Prod.fst

@[simp] theorem get?_nil (key : κ) : get? ([] : Keyed κ α) key = none := rfl

theorem get?_set (m : Keyed κ α) (key key' : κ) (v : α) :
    get? (set m key v) key' = if key = key' then some v else get? m key' := by
  induction m with
  | nil => simp [set, get?]
  | cons e r ih =>
    obtain ⟨k, w⟩ := e
    by_cases h : k = key <;> by_cases h' : k = key' <;> simp_all [set, get?]
    intro hk; exact absurd hk.symm (by simpa using h)

@[simp] theorem get?_set_self (m : Keyed κ α) (key : κ) (v : α) : get? (set m key v) key = some v := by
  simp [get?_set]

theorem get?_set_ne (m : Keyed κ α) {key key' : κ} (v : α) (h : key ≠ key') :
    get? (set m key v) key' = get? m key' := by
  simp [get?_set, h]

end Keyed

end DocQuery
