import DocQuery.Proofs.Addressed

/-!
# The counters of a bulk write

Every write that is counted shows in the number of documents: insertions and upserts add one, deletions take away as
many as they count, updates neither (`Write.Balanced.one`).  This is an invariant between the documents and the
counters, so it holds behind a bulk of any writes in any order, with zero for what no write of it does
(`Store.write_balances`).
-/
namespace DocQuery

namespace WriteModel

/-- What writes do; an upsert is an update too. -/
inductive Kind where
  | insert
  | update
  | upsert
  | delete
  deriving DecidableEq

def isOf (k : Kind) : WriteModel → Bool
  | .insert _ => k = .insert
  | .update _ _ _ wantsUpsert => k = .update || k = .upsert && wantsUpsert
  | .delete _ _ => k = .delete

end WriteModel

def WriteResult.Without (r : WriteResult) : WriteModel.Kind → Prop
  | .insert => r.inserted = 0 ∧ r.insertedIds = []
  | .update => r.matched = 0 ∧ r.modified = 0
  | .upsert => r.upserted = 0
  | .delete => r.deleted = 0

namespace Write

/-- The counters of a bulk under way account for the documents, of which there was some number before. -/
structure Balanced (before : Nat) (st : WriteState) : Prop where
  documents : st.docs.length + st.result.deleted = before + st.result.inserted + st.result.upserted
  modified : st.result.modified ≤ st.result.matched
  ids : st.result.insertedIds.length = st.result.inserted

section

variable {before : Nat} {st : WriteState} {filter change : Value} {f : Filter}

theorem modified_le_matched (f : Filter) (change : Value) (multi : Bool) (docs : List Value) :
    (updateMatches f change multi docs).modified ≤ (updateMatches f change multi docs).matched := by
  induction docs with
  | nil => exact Nat.le_refl _
  | cons d ds ih =>
    rw [updateMatches]
    split
    · split
      · exact Nat.zero_le _
      · rename_i new changed _
        cases multi <;> cases changed <;> simp <;> omega
    · exact ih

theorem Balanced.insert (h : Balanced before st) (ns : Namespace) (document : Value) :
    Balanced before (insert ns document st).1 := by
  obtain ⟨hdocuments, hmodified, hids⟩ := h
  rw [Write.insert]
  simp only
  split
  · exact ⟨hdocuments, hmodified, hids⟩
  · split
    · exact ⟨hdocuments, hmodified, hids⟩
    · refine ⟨?_, hmodified, ?_⟩
      · simp only [List.length_append, List.length_singleton]
        omega
      · simp only [List.length_append, List.length_singleton, hids]

theorem Balanced.upsert (h : Balanced before st) (filter change : Value) :
    Balanced before (upsert filter change st).1 := by
  obtain ⟨hdocuments, hmodified, hids⟩ := h
  rw [Write.upsert]
  split
  · exact ⟨hdocuments, hmodified, hids⟩
  · refine ⟨?_, hmodified, hids⟩
    simp only [List.length_append, List.length_singleton]
    omega

theorem Balanced.update (h : Balanced before st) (filter change : Value) (multi wantsUpsert : Bool) :
    Balanced before (update filter change multi wantsUpsert st).1 := by
  rw [Write.update]
  split
  · exact h
  · rename_i f hread
    obtain ⟨hdocuments, hmodified, hids⟩ := h
    have hlength := length_updateMatches f change multi st.docs
    have hle := modified_le_matched f change multi st.docs
    -- the matches alone, on top of what was counted before
    have hmatches : Balanced before { st with
        docs := (updateMatches f change multi st.docs).docs
        result := { st.result with
          matched := st.result.matched + (updateMatches f change multi st.docs).matched
          modified := st.result.modified + (updateMatches f change multi st.docs).modified } } :=
      ⟨by simpa only [hlength] using hdocuments, Nat.add_le_add hmodified hle, hids⟩
    simp only
    split
    · exact hmatches
    · split
      · exact hmatches.upsert filter change
      · exact hmatches

theorem Balanced.delete (h : Balanced before st) (filter : Value) (limit : Nat) :
    Balanced before (delete filter limit st).1 := by
  rw [Write.delete]
  split
  · exact h
  · rename_i f hread
    obtain ⟨hdocuments, hmodified, hids⟩ := h
    refine ⟨?_, hmodified, hids⟩
    have hle : (if limit = 1 then removeFirst f st.docs else st.docs.filter fun d => !f.holds d).length ≤
        st.docs.length := by
      split
      · exact (removeFirst_sublist f st.docs).length_le
      · exact List.length_filter_le _ _
    simp only
    omega

/-- **A write keeps the balance**, whether it succeeds or fails. -/
theorem Balanced.one (h : Balanced before st) (ns : Namespace) (w : WriteModel) : Balanced before (one ns st w).1 := by
  cases w with
  | insert document => exact h.insert ns document
  | update filter change multi wantsUpsert => exact h.update filter change multi wantsUpsert
  | delete filter limit => exact h.delete filter limit

theorem Balanced.all (ns : Namespace) : ∀ (b : BulkWrite) {st : WriteState}, Balanced before st →
    Balanced before (all ns b st).1
  | [], _, h => h
  | w :: ws, st, h => by
    have hone := h.one ns w
    rw [Write.all]
    rcases hrun : Write.one ns st w with ⟨st', _ | e⟩
    · rw [hrun] at hone
      exact Balanced.all ns ws hone
    · rwa [hrun] at hone

/-- **A write counts nothing of a kind that it is not of.** -/
theorem without_one (ns : Namespace) {w : WriteModel} {k : WriteModel.Kind} (hw : w.isOf k = false)
    (h : st.result.Without k) : (one ns st w).1.result.Without k := by
  cases w with
  | insert document =>
    have hk : k ≠ .insert := by simpa [WriteModel.isOf] using hw
    rw [one, insert]
    simp only
    split
    · exact h
    · split
      · exact h
      · cases k <;> first | exact h | exact absurd rfl hk
  | update filter change multi wantsUpsert =>
    rw [one, update]
    split
    · exact h
    · simp only
      split
      · cases k <;> first | exact h | simp [WriteModel.isOf] at hw
      · split
        · rename_i hwants
          rw [upsert]
          split <;> cases k <;> first | exact h | simp [WriteModel.isOf, hwants.2] at hw
        · cases k <;> first | exact h | simp [WriteModel.isOf] at hw
  | delete filter limit =>
    have hk : k ≠ .delete := by simpa [WriteModel.isOf] using hw
    rw [one, delete]
    split
    · exact h
    · cases k <;> first | exact h | exact absurd rfl hk

theorem without_all (ns : Namespace) {k : WriteModel.Kind} : ∀ {b : BulkWrite} {st : WriteState},
    (∀ w ∈ b, w.isOf k = false) → st.result.Without k → (all ns b st).1.result.Without k
  | [], _, _, h => h
  | w :: ws, st, hb, h => by
    obtain ⟨hw, hws⟩ := List.forall_mem_cons.1 hb
    have hone := without_one ns hw h
    rw [all]
    rcases hrun : one ns st w with ⟨st', _ | e⟩
    · rw [hrun] at hone
      exact without_all ns hws hone
    · rwa [hrun] at hone

end

end Write

namespace Store

theorem write_eq_ok {s s' : Store} {supply supply' : IdSupply} {ns : Namespace} {b : BulkWrite} {r : WriteResult}
    (h : s.write supply ns b = (s', supply', .ok r)) :
    ∃ st, Write.all ns b { docs := s.documents ns, supply := supply } = (st, none) ∧
      s' = s.setDocuments ns st.docs ∧ st.result = r := by
  rw [write] at h
  rcases hrun : Write.all ns b { docs := s.documents ns, supply := supply } with ⟨st, _ | e⟩
  · rw [hrun] at h
    cases h
    exact ⟨st, rfl, rfl, rfl⟩
  · rw [hrun] at h
    cases h

/-- **The counters of a bulk that succeeds balance**: they account for how many documents there are afterwards, no more
are modified than matched, every insertion has its identifier, and what the bulk does not do is not counted. -/
theorem write_balances {s s' : Store} {supply supply' : IdSupply} {ns : Namespace} {b : BulkWrite} {r : WriteResult}
    (h : s.write supply ns b = (s', supply', .ok r)) :
    (s'.documents ns).length + r.deleted = (s.documents ns).length + r.inserted + r.upserted ∧
    r.modified ≤ r.matched ∧
    r.insertedIds.length = r.inserted ∧
    ∀ k : WriteModel.Kind, (∀ w ∈ b, w.isOf k = false) → r.Without k := by
  obtain ⟨st, hrun, rfl, rfl⟩ := write_eq_ok h
  have hstart : Write.Balanced (s.documents ns).length { docs := s.documents ns, supply := supply } :=
    ⟨rfl, Nat.le_refl _, rfl⟩
  have hbalanced := hstart.all ns b
  rw [hrun] at hbalanced
  refine ⟨?_, hbalanced.modified, hbalanced.ids, fun k hb => ?_⟩
  · rw [documents_setDocuments]
    exact hbalanced.documents
  · have hnothing : (WriteState.result { docs := s.documents ns, supply := supply }).Without k := by
      cases k <;> simp [WriteResult.Without]
    have hwithout := Write.without_all ns hb hnothing
    rwa [hrun] at hwithout

def relabelling : BulkWrite :=
  [.insert (labelled 4 "b"), .update (.single "k" (.str "a")) (.single "$set" (.single "k" (.str "c"))) true false,
    .delete (.single "k" (.str "b")) 0]

theorem write_balances_relabelling : ∃ s' supply',
    labels.write ⟨ObjectId.stamped 0, 0⟩ ⟨"app", "t"⟩ relabelling = (s', supply', .ok
      { matched := 2, modified := 2, inserted := 1, deleted := 2, insertedIds := [.int 4] }) ∧
    (s'.documents ⟨"app", "t"⟩).length + 2 = (labels.documents ⟨"app", "t"⟩).length + 1 + 0 ∧
    (∀ w ∈ relabelling, w.isOf .upsert = false) ∧
    WriteResult.Without { matched := 2, modified := 2, inserted := 1, deleted := 2, insertedIds := [.int 4] }
      .upsert := by
  have hkinds : ∀ w ∈ relabelling, w.isOf .upsert = false := by simp [relabelling, WriteModel.isOf]
  have hrun : labels.write ⟨ObjectId.stamped 0, 0⟩ ⟨"app", "t"⟩ relabelling = (_, _, .ok
      { matched := 2, modified := 2, inserted := 1, deleted := 2, insertedIds := [.int 4] }) := rfl
  obtain ⟨hdocuments, -, -, hkind⟩ := write_balances hrun
  exact ⟨_, _, hrun, hdocuments, hkinds, hkind .upsert hkinds⟩

end Store

end DocQuery
