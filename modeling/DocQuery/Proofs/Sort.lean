import DocQuery.Sort
import Mathlib.Data.List.Sort

/-!
# Sorting keeps the documents and puts them in order

A sorted list has the documents it was made of (`sort_perm`).  They ascend by what the sort keys decide
(`sort_pairwise_of_decides`), as by a rank that the keys go by (`sort_pairwise`); nothing is said of keys that order
values in no such way.  Documents none of which comes before another keep their order in any case
(`sort_filter_group`).
-/
namespace DocQuery

namespace SortKeys

theorem insert_perm (before : Value → Value → Bool) (doc : Value) :
    ∀ docs : List Value, (insert before doc docs).Perm (doc :: docs)
  | [] => List.Perm.refl _
  | last :: r => by
    rw [insert]
    split
    · exact ((insert_perm before doc r).cons last).trans (List.Perm.swap doc last r)
    · exact List.Perm.refl _

theorem append_insert_perm (before : Value → Value → Bool) (doc : Value) (docs sorted : List Value) :
    (docs ++ insert before doc sorted).Perm (doc :: docs ++ sorted) :=
  ((insert_perm before doc sorted).append_left docs).trans List.perm_middle

theorem foldl_insert_perm (before : Value → Value → Bool) : ∀ docs sorted : List Value,
    (docs.foldl (fun sorted doc => insert before doc sorted) sorted).Perm (docs ++ sorted)
  | [], sorted => List.Perm.refl _
  | doc :: docs, sorted => by
    rw [List.foldl_cons]
    exact (foldl_insert_perm before docs _).trans (append_insert_perm before doc docs sorted)

/-- **Sorting keeps the documents.** -/
theorem sort_perm (keys : SortKeys) (docs : List Value) : (sort keys docs).Perm docs := by
  unfold sort
  refine (List.reverse_perm _).trans ?_
  have h := foldl_insert_perm (fun a b => order keys a b == .lt) docs []
  rw [List.append_nil] at h
  exact h

theorem mem_sort {keys : SortKeys} {docs : List Value} {doc : Value} : doc ∈ sort keys docs ↔ doc ∈ docs :=
  (sort_perm keys docs).mem_iff

/-! ## In order -/

/-- What comes before decides a relation among some documents, which is transitive. -/
structure Decides (before : Value → Value → Bool) (le : Value → Value → Prop) (docs : List Value) : Prop where
  ahead : ∀ a ∈ docs, ∀ b ∈ docs, before a b = true → le a b
  behind : ∀ a ∈ docs, ∀ b ∈ docs, before a b = false → le b a
  trans : ∀ a ∈ docs, ∀ b ∈ docs, ∀ c ∈ docs, le a b → le b c → le a c

section Decides

variable {before : Value → Value → Bool} {le : Value → Value → Prop}

theorem Decides.subset {docs docs' : List Value} (h : Decides before le docs) (hsub : ∀ doc ∈ docs', doc ∈ docs) :
    Decides before le docs' where
  ahead a ha b hb := h.ahead a (hsub a ha) b (hsub b hb)
  behind a ha b hb := h.behind a (hsub a ha) b (hsub b hb)
  trans a ha b hb c hc := h.trans a (hsub a ha) b (hsub b hb) c (hsub c hc)

theorem insert_pairwise {doc : Value} : ∀ {sorted : List Value}, Decides before le (doc :: sorted) →
    sorted.Pairwise (fun a b => le b a) → (insert before doc sorted).Pairwise fun a b => le b a
  | [], _, _ => List.pairwise_singleton _ _
  | last :: r, h, hs => by
    obtain ⟨hlast, hr⟩ := List.pairwise_cons.1 hs
    have hdoc : doc ∈ doc :: last :: r := List.mem_cons_self
    have hmem : last ∈ doc :: last :: r := List.mem_cons_of_mem _ List.mem_cons_self
    rw [insert]
    split
    · rename_i hbefore
      have hrest : Decides before le (doc :: r) := h.subset fun a ha => by
        rcases List.mem_cons.1 ha with rfl | ha
        · exact hdoc
        · exact List.mem_cons_of_mem _ (List.mem_cons_of_mem _ ha)
      refine List.pairwise_cons.2 ⟨fun a ha => ?_, insert_pairwise hrest hr⟩
      rcases List.mem_cons.1 ((insert_perm before doc r).mem_iff.1 ha) with rfl | ha
      · exact h.ahead _ hdoc _ hmem hbefore
      · exact hlast a ha
    · rename_i hbefore
      have hle : le last doc := h.behind _ hdoc _ hmem (Bool.not_eq_true _ ▸ hbefore)
      refine List.pairwise_cons.2 ⟨fun a ha => ?_, hs⟩
      rcases List.mem_cons.1 ha with rfl | ha
      · exact hle
      · exact h.trans _ (List.mem_cons_of_mem _ (List.mem_cons_of_mem _ ha)) _ hmem _ hdoc (hlast a ha) hle

theorem foldl_insert_pairwise : ∀ {docs sorted : List Value}, Decides before le (docs ++ sorted) →
    sorted.Pairwise (fun a b => le b a) →
    (docs.foldl (fun sorted doc => insert before doc sorted) sorted).Pairwise fun a b => le b a
  | [], _, _, hs => hs
  | doc :: docs, sorted, h, hs => by
    have hperm := append_insert_perm before doc docs sorted
    have hinsert : Decides before le (doc :: sorted) :=
      h.subset fun a ha => hperm.mem_iff.1 (List.mem_append_right _ ((insert_perm before doc sorted).mem_iff.2 ha))
    rw [List.foldl_cons]
    exact foldl_insert_pairwise (h.subset fun a ha => hperm.mem_iff.1 ha) (insert_pairwise hinsert hs)

/-- **Sorted documents ascend by the relation that the keys decide.** -/
theorem sort_pairwise_of_decides {keys : SortKeys} {docs : List Value}
    (h : Decides (fun a b => order keys a b == .lt) le docs) : (sort keys docs).Pairwise le := by
  unfold sort
  rw [List.pairwise_reverse]
  refine foldl_insert_pairwise ?_ List.Pairwise.nil
  rw [List.append_nil]
  exact h

end Decides

/-- **Sorted documents ascend by the rank that the keys go by**, as long as they go by it where ranks differ. -/
theorem sort_pairwise {κ : Type} [LinearOrder κ] {rank : Value → κ} {keys : SortKeys} {docs : List Value}
    (h : ∀ a ∈ docs, ∀ b ∈ docs, rank a ≠ rank b → order keys a b = compare (rank a) (rank b)) :
    (sort keys docs).Pairwise (fun a b => rank a ≤ rank b) := by
  refine sort_pairwise_of_decides ⟨fun a ha b hb hbefore => ?_, fun a ha b hb hbefore => ?_,
    fun _ _ _ _ _ _ => le_trans⟩
  · by_contra hgt
    rw [h a ha b hb fun heq => hgt (le_of_eq heq), beq_iff_eq, compare_lt_iff_lt] at hbefore
    exact hgt (le_of_lt hbefore)
  · by_contra hlt
    rw [h a ha b hb fun heq => hlt (le_of_eq heq.symm), beq_eq_false_iff_ne, Ne, compare_lt_iff_lt] at hbefore
    exact hbefore (not_le.1 hlt)

/-! ## Groups that keep their order -/

section Groups

variable {before : Value → Value → Bool} {group : Value → Bool}

theorem insert_filter {doc : Value} : ∀ {sorted : List Value},
    (∀ a ∈ sorted, group doc = true → group a = true → before doc a = false) →
    (insert before doc sorted).filter group = (doc :: sorted).filter group
  | [], _ => rfl
  | last :: r, h => by
    obtain ⟨hlast, hr⟩ := List.forall_mem_cons.1 h
    rw [insert]
    split
    · rename_i hbefore
      rw [List.filter_cons, insert_filter hr]
      -- of two that change places one is not in the group
      by_cases hdoc : group doc = true
      · have hout : group last = false := by
          rw [← Bool.not_eq_true]
          intro hin
          rw [hlast hdoc hin] at hbefore
          cases hbefore
        simp [hdoc, hout]
      · simp [hdoc, List.filter_cons]
    · rfl

theorem foldl_insert_filter : ∀ {docs sorted : List Value},
    (∀ a ∈ docs ++ sorted, ∀ b ∈ docs ++ sorted, group a = true → group b = true → before a b = false) →
    (docs.foldl (fun sorted doc => insert before doc sorted) sorted).filter group =
      (docs.reverse ++ sorted).filter group
  | [], sorted, _ => rfl
  | doc :: docs, sorted, h => by
    have hperm := append_insert_perm before doc docs sorted
    rw [List.foldl_cons, foldl_insert_filter fun a ha b hb => h a (hperm.mem_iff.1 ha) b (hperm.mem_iff.1 hb),
      List.filter_append, insert_filter fun a ha => h doc List.mem_cons_self a (List.mem_append_right _ ha),
      ← List.filter_append, List.reverse_cons, List.append_assoc, List.singleton_append]

/-- **Sorting keeps the order of documents none of which comes before another.** -/
theorem sort_filter_group {keys : SortKeys} {docs : List Value}
    (h : ∀ a ∈ docs, ∀ b ∈ docs, group a = true → group b = true → order keys a b ≠ .lt) :
    (sort keys docs).filter group = docs.filter group := by
  unfold sort
  rw [List.filter_reverse, foldl_insert_filter, List.append_nil, ← List.filter_reverse, List.reverse_reverse]
  intro a ha b hb hga hgb
  rw [List.append_nil] at ha hb
  exact beq_eq_false_iff_ne.2 (h a ha b hb hga hgb)

end Groups

end SortKeys

theorem window_sublist (limit skip : Option Nat) (docs : List Value) : (window limit skip docs).Sublist docs := by
  unfold window
  split
  · split
    · exact (List.take_sublist _ _).trans (List.drop_sublist _ _)
    · exact List.drop_sublist _ _
  · exact List.drop_sublist _ _

end DocQuery
