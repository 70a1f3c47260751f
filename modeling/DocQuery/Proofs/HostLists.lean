import DocQuery.Endpoint

/-!
# Comma lists with an entry for each host

Hosts side by side take their settings from comma lists.  Blank entries are left out before the entry of a host is
looked up by its index, so each of them moves the entries behind it to hosts in front of their own
(`Text.later_of_splitList`).  A list gives every host its own entry just if all that stands behind a blank entry is like
the first one (`Settings.part_eq_iff`).
-/
namespace DocQuery

namespace Text

def entries (list : String) : List String := (cut ',' list).map trim

/-- Whatever stands behind a blank entry is like the first that is not blank. -/
def Aligned (list : String) : Prop :=
  ∀ i x, (entries list)[i]? = some x → x ≠ "" → "" ∈ (entries list).take i → x = (splitList list).headD ""

section

variable {α : Type} {p : α → Bool} {x : α}

theorem getElem?_filter_of_getElem? {l : List α} {i : Nat} (hi : l[i]? = some x) (hx : p x = true) :
    (l.filter p)[((l.take i).filter p).length]? = some x := by
  obtain ⟨hlt, hget⟩ := List.getElem?_eq_some_iff.1 hi
  have hsplit : l.filter p = (l.take i).filter p ++ x :: (l.drop (i + 1)).filter p := by
    calc l.filter p = (l.take i ++ l.drop i).filter p := by rw [List.take_append_drop]
      _ = _ := by rw [List.drop_eq_getElem_cons hlt, hget, List.filter_append, List.filter_cons_of_pos hx]
  rw [hsplit, List.getElem?_append_right (Nat.le_refl _), Nat.sub_self]
  rfl

theorem exists_of_getElem?_filter : ∀ {l : List α} {k : Nat}, (l.filter p)[k]? = some x →
    ∃ i, l[i]? = some x ∧ p x = true ∧ ((l.take i).filter p).length = k
  | a :: l, k, h => by
    by_cases ha : p a = true
    · rw [List.filter_cons_of_pos ha] at h
      cases k with
      | zero =>
        obtain rfl : a = x := by simpa using h
        exact ⟨0, rfl, ha, rfl⟩
      | succ k =>
        obtain ⟨i, hi, hx, hk⟩ := exists_of_getElem?_filter (l := l) (by simpa using h)
        exact ⟨i + 1, hi, hx, by simp [ha, hk]⟩
    · rw [List.filter_cons_of_neg ha] at h
      obtain ⟨i, hi, hx, hk⟩ := exists_of_getElem?_filter h
      exact ⟨i + 1, hi, hx, by simp [ha, hk]⟩

end

variable {list x : String} {i : Nat}

theorem splitList_eq_filter (list : String) : splitList list = (entries list).filter (· ≠ "") := rfl

theorem getElem?_splitList (hi : (entries list)[i]? = some x) (hx : x ≠ "") (hb : "" ∉ (entries list).take i) :
    (splitList list)[i]? = some x := by
  have hkept : ((entries list).take i).filter (· ≠ "") = (entries list).take i := by
    refine List.filter_eq_self.2 fun y hy => ?_
    simp only [ne_eq, decide_eq_true_eq]
    rintro rfl
    exact hb hy
  have hlt := (List.getElem?_eq_some_iff.1 hi).1
  have hget := getElem?_filter_of_getElem? (p := (· ≠ "")) hi (by simpa using hx)
  rw [hkept, List.length_take, Nat.min_eq_left (Nat.le_of_lt hlt)] at hget
  exact hget

/-- **With a blank entry before it, an index finds an entry from further behind.** -/
theorem later_of_splitList (hx : (splitList list)[i]? = some x) (hb : "" ∈ (entries list).take i) :
    ∃ j, i < j ∧ (entries list)[j]? = some x ∧ x ≠ "" ∧ "" ∈ (entries list).take j := by
  rw [splitList_eq_filter] at hx
  obtain ⟨j, hj, hne, hrank⟩ := exists_of_getElem?_filter hx
  have hle : ((entries list).take j).length ≤ j := List.length_take_le _ _
  have hij : i ≤ j := by
    have := List.length_filter_le (· ≠ "") ((entries list).take j)
    omega
  have hblank : "" ∈ (entries list).take j := (List.take_subset_take_left _ hij) hb
  have hlt : (((entries list).take j).filter (· ≠ "")).length < ((entries list).take j).length :=
    List.length_filter_lt_length_iff_exists.2 ⟨"", hblank, by simp⟩
  exact ⟨j, by omega, hj, by simpa using hne, hblank⟩

end Text

namespace Settings

open Text (entries splitList Aligned)

variable {list x : String} {i : Nat}

theorem part_eq (list : String) (i : Nat) :
    part list i = ((splitList list)[i]?).getD ((splitList list).headD "") := List.getD_eq_getElem?_getD

theorem part_of_no_blank (hi : (entries list)[i]? = some x) (hx : x ≠ "") (hb : "" ∉ (entries list).take i) :
    part list i = x := by
  rw [part_eq, Text.getElem?_splitList hi hx hb, Option.getD_some]

theorem eq_head_of_parts (h : ∀ i x, (entries list)[i]? = some x → x ≠ "" → part list i = x) {i : Nat} {x : String}
    (hi : (entries list)[i]? = some x) (hx : x ≠ "") (hb : "" ∈ (entries list).take i) :
    x = (splitList list).headD "" := by
  -- the entry is like the one that its index finds, which stands further behind; at the end the index finds the first
  have hpart := h i x hi hx
  rw [part_eq] at hpart
  cases hy : (splitList list)[i]? with
  | none =>
    rw [hy] at hpart
    exact hpart.symm
  | some y =>
    rw [hy, Option.getD_some] at hpart
    obtain ⟨j, hij, hj, hne, hblank⟩ := Text.later_of_splitList hy hb
    have hlt := (List.getElem?_eq_some_iff.1 hj).1
    rw [← hpart]
    exact eq_head_of_parts h hj hne hblank
termination_by (entries list).length - i

/-- **A comma list gives every host its own entry just if it is aligned.** -/
theorem part_eq_iff (list : String) :
    (∀ i x, (entries list)[i]? = some x → x ≠ "" → part list i = x) ↔ Aligned list := by
  constructor
  · intro h i x hi hx hb
    exact eq_head_of_parts h hi hx hb
  · intro h i x hi hx
    by_cases hb : "" ∈ (entries list).take i
    · rw [h i x hi hx hb, part_eq]
      cases hy : (splitList list)[i]? with
      | none => rfl
      | some y =>
        obtain ⟨j, -, hj, hne, hblank⟩ := Text.later_of_splitList hy hb
        exact h j y hj hne hblank
    · exact part_of_no_blank hi hx hb

inductive HostList where
  | hostname
  | hostport
  | database
  | username
  | password
  | dsn

def HostList.of : HostList → Settings → String
  | hostname => Settings.hostname
  | hostport => Settings.hostport
  | database => Settings.database
  | username => Settings.username
  | password => Settings.password
  | dsn => Settings.dsn

theorem HostList.of_forHost (l : HostList) (s : Settings) (i : Nat) : l.of (s.forHost i) = part (l.of s) i := by
  cases l <;> rfl

/-- **Each host has its own entry of a comma list just if the list is aligned**: what stands behind a blank entry is
like the first that is not blank.  An entry with no blank one before it always reaches its host. -/
theorem entries_configure_hosts_iff (s : Settings) (l : HostList) :
    ((∀ i x, (entries (l.of s))[i]? = some x → x ≠ "" → l.of (s.forHost i) = x) ↔ Aligned (l.of s)) ∧
    ∀ i x, (entries (l.of s))[i]? = some x → x ≠ "" → "" ∉ (entries (l.of s)).take i → l.of (s.forHost i) = x := by
  constructor
  · simp only [HostList.of_forHost]
    exact part_eq_iff (l.of s)
  · intro i x hi hx hb
    rw [HostList.of_forHost]
    exact part_of_no_blank hi hx hb

def noSecondPassword : Settings :=
  { hostname := "a, b,c", username := "ua,ub,uc", password := "x,,z", deployment := .distributed }

/-- **The password of the third host goes to the second**, and the third gets that of the first. -/
theorem password_moves_ahead : (entries noSecondPassword.password)[2]? = some "z" ∧ "z" ≠ "" ∧
    (noSecondPassword.forHost 2).password = "x" ∧ (noSecondPassword.forHost 1).password = "z" :=
  ⟨by decide, by decide, by decide, by decide⟩

end Settings

end DocQuery
