import DocQuery.Value.Order
import DocQuery.Value.Path

/-!
# Sorting and windows

Documents are sorted by the values at some paths, each in one of two directions, and documents that agree on all of
them keep their order.  A window skips documents and limits their number.
-/
namespace DocQuery

/-- Paths with directions: negative ones descend, all others ascend. -/
abbrev SortKeys := List (String × Int)

namespace SortKeys

/-- The order of two documents: that of the first path on which they differ. -/
def order : SortKeys → Value → Value → Ordering
  | [], _, _ => .eq
  | (path, direction) :: r, a, b =>
    match Value.sortOrder (a.path? path) (b.path? path) with
    | .eq => order r a b
    | o => if 0 ≤ direction then o else o.swap

/-- Puts a document behind all of a reversed list that it does not come before. -/
def insert (before : Value → Value → Bool) (doc : Value) : List Value → List Value
  | [] => [doc]
  | last :: r => if before doc last then last :: insert before doc r else doc :: last :: r

/-- Sorts documents; one goes to the left only past those it comes strictly before. -/
def sort (keys : SortKeys) (docs : List Value) : List Value :=
  (docs.foldl (fun sorted doc => insert (fun a b => order keys a b == .lt) doc sorted) []).reverse

def toValue (keys : SortKeys) : Value := .obj (Keyed.ofList (keys.map fun e => (e.1, Value.int e.2)))

end SortKeys

/-- The documents behind the first `skip`, at most `limit` of them; a limit of zero is none. -/
def window (limit skip : Option Nat) (docs : List Value) : List Value :=
  let rest := docs.drop (skip.getD 0)
  match limit with
  | some n => if 0 < n then rest.take n else rest
  | none => rest

end DocQuery
