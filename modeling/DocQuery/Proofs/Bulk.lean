import DocQuery.Proofs.Keyed
import DocQuery.Store.Write

/-!
# Bulk writes put together

What a write does to the documents does not depend on what was counted before it (`Write.one_counting`).  So a bulk of
two parts is the first part and then, unless that failed, the second one, with their counters added up
(`Store.write_append`).
-/
namespace DocQuery

namespace WriteResult

def plus (a b : WriteResult) : WriteResult :=
  { matched := a.matched + b.matched
    modified := a.modified + b.modified
    inserted := a.inserted + b.inserted
    deleted := a.deleted + b.deleted
    upserted := a.upserted + b.upserted
    insertedIds := a.insertedIds ++ b.insertedIds }

theorem plus_nothing (a : WriteResult) : a.plus {} = a := by
  simp [plus]

end WriteResult

/-- A bulk write under way that did something else before. -/
def WriteState.counting (st : WriteState) (before : WriteResult) : WriteState :=
  { st with result := before.plus st.result }

namespace Write

section

variable (st : WriteState) (before : WriteResult)

theorem insert_counting (ns : Namespace) (document : Value) : insert ns document (st.counting before) =
    ((insert ns document st).1.counting before, (insert ns document st).2) := by
  simp only [insert, WriteState.counting]
  cases idOf? (ensureId st.supply document).1 with
  | none => rfl
  | some id =>
    by_cases hthere : st.docs.any (sameId (ensureId st.supply document).1) = true
    · simp only [hthere, if_true]
    · simp only [hthere, Bool.false_eq_true, if_false, WriteResult.plus, Nat.add_assoc, List.append_assoc]

theorem upsert_counting (filter change : Value) : upsert filter change (st.counting before) =
    ((upsert filter change st).1.counting before, (upsert filter change st).2) := by
  simp only [upsert, WriteState.counting]
  split
  · rfl
  · simp only [WriteResult.plus, Nat.add_assoc]

theorem update_counting (filter change : Value) (multi wantsUpsert : Bool) :
    update filter change multi wantsUpsert (st.counting before) =
      ((update filter change multi wantsUpsert st).1.counting before,
        (update filter change multi wantsUpsert st).2) := by
  unfold update
  split
  · rfl
  · rename_i f hread
    -- the matches are counted on top of either count
    have hmatches : ∀ u : Updated, { st.counting before with
          docs := u.docs
          result := { (st.counting before).result with
            matched := (st.counting before).result.matched + u.matched
            modified := (st.counting before).result.modified + u.modified } } =
        WriteState.counting { st with
          docs := u.docs
          result := { st.result with
            matched := st.result.matched + u.matched
            modified := st.result.modified + u.modified } } before := fun u => by
      simp only [WriteState.counting, WriteResult.plus, Nat.add_assoc]
    simp only [show (st.counting before).docs = st.docs from rfl, hmatches]
    split
    · rfl
    · split
      · exact upsert_counting _ before filter change
      · rfl

theorem delete_counting (filter : Value) (limit : Nat) : delete filter limit (st.counting before) =
    ((delete filter limit st).1.counting before, (delete filter limit st).2) := by
  simp only [delete, WriteState.counting]
  split
  · rfl
  · simp only [WriteResult.plus, Nat.add_assoc]

/-- **What a write does does not depend on what was counted before it**; its own count comes on top. -/
theorem one_counting (ns : Namespace) (w : WriteModel) : one ns (st.counting before) w =
    ((one ns st w).1.counting before, (one ns st w).2) := by
  cases w with
  | insert document => exact insert_counting st before ns document
  | update filter change multi wantsUpsert => exact update_counting st before filter change multi wantsUpsert
  | delete filter limit => exact delete_counting st before filter limit

end

theorem all_counting (ns : Namespace) (before : WriteResult) : ∀ (b : BulkWrite) (st : WriteState),
    all ns b (st.counting before) = ((all ns b st).1.counting before, (all ns b st).2)
  | [], _ => rfl
  | w :: ws, st => by
    rw [all, all, one_counting]
    rcases one ns st w with ⟨st', _ | f⟩
    · exact all_counting ns before ws st'
    · rfl

theorem all_append (ns : Namespace) (b : BulkWrite) : ∀ (a : BulkWrite) (st : WriteState),
    all ns (a ++ b) st = match all ns a st with
      | (st', none) => all ns b st'
      | (st', some f) => (st', some f)
  | [], _ => rfl
  | w :: ws, st => by
    rw [List.cons_append, all, all]
    rcases one ns st w with ⟨st', _ | f⟩
    · exact all_append ns b ws st'
    · rfl

end Write

namespace Store

theorem setDocuments_setDocuments (s : Store) (ns : Namespace) (docs docs' : List Value) :
    (s.setDocuments ns docs).setDocuments ns docs' = s.setDocuments ns docs' :=
  Keyed.set_set s ns.text docs docs'

/-- **A bulk of two parts is the first part and then the second**: the same store, the same identifiers taken, the same
success or fault, and the counters of both.  If the first part fails, the second one is as if it were not there. -/
theorem write_append (s : Store) (supply : IdSupply) (ns : Namespace) (a b : BulkWrite) :
    s.write supply ns (a ++ b) = match s.write supply ns a with
      | (s', supply', .ok r) =>
        let (s'', supply'', out) := s'.write supply' ns b
        (s'', supply'', out.map r.plus)
      | (s', supply', .error f) => (s', supply', .error f) := by
  unfold write
  rw [Write.all_append]
  rcases Write.all ns a { docs := s.documents ns, supply := supply } with ⟨st, _ | f⟩
  · -- the second part starts where the first one ended, but counts from nothing when it is alone
    have hstart : st = WriteState.counting
        { docs := (s.setDocuments ns st.docs).documents ns, supply := st.supply } st.result := by
      rw [documents_setDocuments, WriteState.counting, WriteResult.plus_nothing]
    have hrun := Write.all_counting ns st.result b
      { docs := (s.setDocuments ns st.docs).documents ns, supply := st.supply }
    rw [← hstart] at hrun
    simp only [hrun, setDocuments_setDocuments]
    rcases Write.all ns b { docs := (s.setDocuments ns st.docs).documents ns, supply := st.supply } with ⟨st', _ | f⟩
    · rfl
    · rfl
  · rfl

end Store

end DocQuery
