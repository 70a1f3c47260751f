import DocQuery.Proofs.Addressed
import DocQuery.Proofs.FieldWrites

/-!
# What is stored

What is there after a write was there before, or a change made it of such a document, or it was inserted, or an upsert
made it (`Write.Origin`).  So a property of documents that every write keeps holds of all that is stored in a run
(`Memory.holds_after`).  That they are objects is kept by any write, whatever goes wrong on the way; that they are
well-formed too, by a write whose parts are well-formed.  Nothing more is common to what is stored: any object can be
(`Memory.stored_are_objects`).  Rows that are made of documents are objects as well.
-/
namespace DocQuery

structure Value.IsDocument (d : Value) : Prop where
  wellFormed : d.WellFormed
  isObj : d.isObj = true

namespace Write

/-! ## Where documents come from -/

/-- Where a document comes from that is there after a write. -/
inductive Origin (st : WriteState) : WriteModel → Value → Prop where
  | kept {w : WriteModel} {d : Value} (hd : d ∈ st.docs) : Origin st w d
  | inserted {document : Value} {id : DocumentId} (hid : idOf? (ensureId st.supply document).1 = some id) :
    Origin st (.insert document) (ensureId st.supply document).1
  | changed {filter change : Value} {multi wantsUpsert : Bool} {f : Filter} {d : Value}
    (hread : Filter.ofValue filter = .ok f) (hd : d ∈ st.docs) (hholds : f.holds d = true) :
    Origin st (.update filter change multi wantsUpsert) (Change.apply change d).1
  | upserted {filter change : Value} {multi : Bool} {new : Value}
    (hnew : upserted? filter change st.supply = some new) : Origin st (.update filter change multi true) new

section

variable {st : WriteState} {d : Value}

theorem origin_insert {ns : Namespace} {document : Value} (h : d ∈ (insert ns document st).1.docs) :
    Origin st (.insert document) d := by
  rw [insert] at h
  simp only at h
  split at h
  · exact .kept h
  · rename_i id hid
    split at h
    · exact .kept h
    · rcases List.mem_append.1 h with h | h
      · exact .kept h
      · rw [List.mem_singleton.1 h]
        exact .inserted hid

theorem origin_updateMatches {filter change : Value} {multi wantsUpsert : Bool} {f : Filter}
    (hread : Filter.ofValue filter = .ok f) (h : d ∈ (updateMatches f change multi st.docs).docs) :
    Origin st (.update filter change multi wantsUpsert) d := by
  have hall : List.Forall₂ (fun new old => new = old ∨ f.holds old = true ∧ new = (Change.apply change old).1)
      (updateMatches f change multi st.docs).docs st.docs :=
    forall₂_updateMatches (fun e _ => .inl rfl) fun e _ hholds => .inr ⟨hholds, rfl⟩
  obtain ⟨e, he, rfl | ⟨hholds, rfl⟩⟩ := exists_of_forall₂ hall d h
  · exact .kept he
  · exact .changed hread he hholds

theorem origin_update {filter change : Value} {multi wantsUpsert : Bool}
    (h : d ∈ (update filter change multi wantsUpsert st).1.docs) :
    Origin st (.update filter change multi wantsUpsert) d := by
  rw [update] at h
  split at h
  · exact .kept h
  · rename_i f hread
    simp only at h
    split at h
    · exact origin_updateMatches hread h
    · split at h
      · rename_i hwants
        rw [docs_upsert] at h
        rcases List.mem_append.1 h with h | h
        · exact origin_updateMatches hread h
        · rw [hwants.2]
          exact .upserted (Option.mem_toList.1 h)
      · exact origin_updateMatches hread h

theorem origin_delete {filter : Value} {limit : Nat} (h : d ∈ (delete filter limit st).1.docs) :
    Origin st (.delete filter limit) d := by
  rw [delete] at h
  split at h
  · exact .kept h
  · simp only at h
    split at h
    · exact .kept ((removeFirst_sublist _ _).subset h)
    · exact .kept (List.mem_filter.1 h).1

/-- **What is there after a write was there before, or was changed, inserted or upserted**, also if the write fails. -/
theorem origin_one {ns : Namespace} {w : WriteModel} (h : d ∈ (one ns st w).1.docs) : Origin st w d := by
  cases w with
  | insert document => exact origin_insert h
  | update filter change multi wantsUpsert => exact origin_update h
  | delete filter limit => exact origin_delete h

end

/-! ## What writes keep -/

/-- A property is kept by a write: it is had by what is stored, if it was had before. -/
def Keeps (P : Value → Prop) (w : WriteModel) : Prop :=
  ∀ st : WriteState, (∀ d ∈ st.docs, P d) → ∀ d, Origin st w d → P d

theorem isObj_of_idOf? {d : Value} {id : DocumentId} (h : idOf? d = some id) : d.isObj = true := by
  cases d with
  | obj fs => rfl
  | _ => cases h

/-- **Objects are all that is stored**, whatever is written. -/
theorem keeps_isObj (w : WriteModel) : Keeps (fun d => d.isObj = true) w := fun st h d horigin => by
  cases horigin with
  | kept hd => exact h d hd
  | inserted hid => exact isObj_of_idOf? hid
  | changed _ hd _ => exact Change.isObj_apply _ (h _ hd)
  | upserted hnew =>
    rw [eq_of_upserted? hnew]
    exact isObj_ensureId st.supply (isObj_changed_seed _ _)

theorem keeps_wellFormed {w : WriteModel} (hw : w.WellFormed) : Keeps Value.WellFormed w := fun st h d horigin => by
  cases horigin with
  | kept hd => exact h d hd
  | inserted hid => exact wellFormed_ensureId st.supply hw
  | changed _ hd _ => exact Change.wellFormed_apply hw.2 (h _ hd)
  | upserted hnew => exact (stored_upserted hw.1 hw.2 hnew).wellFormed

theorem keeps_isDocument {w : WriteModel} (hw : w.WellFormed) : Keeps Value.IsDocument w := fun st h d horigin =>
  ⟨keeps_wellFormed hw st (fun e he => (h e he).wellFormed) d horigin,
    keeps_isObj w st (fun e he => (h e he).isObj) d horigin⟩

theorem Keeps.all {P : Value → Prop} {ns : Namespace} : ∀ {b : BulkWrite} {st : WriteState}, (∀ w ∈ b, Keeps P w) →
    (∀ d ∈ st.docs, P d) → ∀ d ∈ (all ns b st).1.docs, P d
  | [], _, _, h => h
  | w :: ws, st, hb, h => by
    obtain ⟨hone, hrest⟩ := List.forall_mem_cons.1 hb
    have hdocs : ∀ d ∈ (one ns st w).1.docs, P d := fun d hd => hone st h d (origin_one hd)
    rw [Write.all]
    rcases hon : one ns st w with ⟨st', _ | e⟩
    · rw [hon] at hdocs
      exact Keeps.all hrest hdocs
    · rw [hon] at hdocs
      exact hdocs

end Write

/-! ## What is in a store -/

namespace Store

def Holds (P : Value → Prop) (s : Store) : Prop := ∀ e ∈ s, ∀ d ∈ e.2, P d

def HoldsDocuments (s : Store) : Prop := ∀ e ∈ s, ∀ d ∈ e.2, d.IsDocument

section

variable {s : Store} {P : Value → Prop}

theorem Holds.documents (h : s.Holds P) (ns : Namespace) : ∀ d ∈ s.documents ns, P d := by
  rw [Store.documents]
  cases hget : Keyed.get? s ns.text with
  | none => exact fun _ hd => by cases hd
  | some docs => exact h _ (Keyed.mem_of_get? hget)

theorem Holds.write (h : s.Holds P) {supply : IdSupply} {ns : Namespace} {b : BulkWrite}
    (hb : ∀ w ∈ b, Write.Keeps P w) : (s.write supply ns b).1.Holds P := fun e he => by
  rcases Keyed.mem_set he with rfl | he
  · exact Write.Keeps.all hb (h.documents ns)
  · exact h e he

theorem Holds.drop (h : s.Holds P) (ns : Namespace) : (s.drop ns).Holds P :=
  fun e he => h e ((Keyed.erase_sublist s ns.text).subset he)

theorem HoldsDocuments.documents (h : s.HoldsDocuments) (ns : Namespace) : ∀ d ∈ s.documents ns, d.IsDocument :=
  Holds.documents h ns

end

end Store

namespace Memory

def Call.Keeps (P : Value → Prop) : Call → Prop
  | write _ b => ∀ w ∈ b, Write.Keeps P w
  | command _ _ => True

/-- **What every write of a run keeps holds of all that is stored in it.** -/
theorem holds_after {P : Value → Prop} : ∀ {calls : List Call} {m : Memory}, m.store.Holds P →
    (∀ call ∈ calls, call.Keeps P) → (after calls m).store.Holds P
  | [], _, h, _ => h
  | call :: calls, m, h, hkeeps => by
    obtain ⟨hcall, hrest⟩ := List.forall_mem_cons.1 hkeeps
    have hone : (call.on m).store.Holds P := by
      refine store_on h (fun ns b heq => ?_) h.drop
      subst heq
      exact h.write hcall
    rw [after]
    exact holds_after hone hrest

/-- **Nothing but documents comes into a store.** -/
theorem holdsDocuments_after {calls : List Call} {m : Memory} (h : m.store.HoldsDocuments)
    (hw : ∀ call ∈ calls, call.WellFormed) : (after calls m).store.HoldsDocuments := by
  refine holds_after h fun call hcall => ?_
  cases call with
  | write ns b => exact fun w hb => Write.keeps_isDocument (hw _ hcall w hb)
  | command database c => trivial

/-! ## Any object can be stored -/

theorem exists_apply_eq (fs : Fields) (id : Value) :
    ∃ change, (Change.apply change (.obj (Keyed.set fs "_id" id))).1 = .obj fs := by
  cases hid : Keyed.get? fs "_id" with
  | none =>
    refine ⟨Change.acting "$unset" "_id" .null, ?_⟩
    have happly : (Change.apply (Change.acting "$unset" "_id" .null) (.obj (Keyed.set fs "_id" id))).1 =
        (Value.obj (Keyed.set fs "_id" id)).removePath "_id" := by
      rw [Change.apply_acting (by decide)]
      rfl
    rw [happly, Value.removePath_single (by decide), Keyed.set_of_get?_none hid, Keyed.swapErase_last hid]
  | some own =>
    refine ⟨Change.acting "$set" "_id" own, ?_⟩
    have happly : (Change.apply (Change.acting "$set" "_id" own) (.obj (Keyed.set fs "_id" id))).1 =
        (Value.obj (Keyed.set fs "_id" id)).setPath "_id" own := by
      rw [Change.apply_acting (by decide)]
      rfl
    rw [happly, Value.setPath_single (by decide), Keyed.set_set, Keyed.set_of_get?_some hid]

def placing (ns : Namespace) (document change : Value) : List Call :=
  [.write ns [.insert document], .write ns [.update (.obj []) change false false]]

theorem documents_placing (m : Memory) (ns : Namespace) {document : Value} (change : Value)
    (hid : document.field? "_id" = some (.int 1)) :
    (after (placing ns document change) { m with store := [] }).store.documents ns =
      [(Change.apply change document).1] := by
  have hinsert : (Store.write [] m.supply ns [.insert document]).1.documents ns = [document] := by
    rw [Store.write_single, Store.documents_setDocuments, Write.one, Write.insert, Write.ensureId_given m.supply hid]
    simp only [Write.idOf?, hid]
    rfl
  rw [placing, after, after, after, Call.on, Memory.write, Call.on, Memory.write]
  simp only
  rw [Store.write_single, Store.documents_setDocuments, hinsert]
  exact Write.docs_update_first rfl rfl []

/-- **Everything that is ever stored is an object**, whatever is written and whichever writes fail; and every object can
be stored. -/
theorem stored_are_objects (m : Memory) :
    (∀ calls, ∀ e ∈ (after calls { m with store := [] }).store, ∀ d ∈ e.2, d.isObj = true) ∧
      ∀ ns d, d.isObj = true → ∃ calls, (after calls { m with store := [] }).store.documents ns = [d] := by
  constructor
  · intro calls
    have hempty : Store.Holds (fun d => d.isObj = true) [] := fun e he => by cases he
    refine holds_after hempty fun call _ => ?_
    cases call with
    | write ns b => exact fun w _ => Write.keeps_isObj w
    | command database c => trivial
  · intro ns d hd
    obtain ⟨fs, rfl⟩ := Value.isObj_iff.1 hd
    obtain ⟨change, happly⟩ := exists_apply_eq fs (.int 1)
    refine ⟨placing ns (.obj (Keyed.set fs "_id" (.int 1))) change, ?_⟩
    have hid : (Value.obj (Keyed.set fs "_id" (.int 1))).field? "_id" = some (.int 1) :=
      Keyed.get?_set_self fs "_id" (.int 1)
    rw [documents_placing m ns change hid, happly]

end Memory

/-! ## Rows -/

namespace Value

theorem isObj_project {d : Value} (h : d.isObj = true) (fs : Fields) : (project fs d).isObj = true := by
  unfold project
  split
  · exact h
  · cases d with
    | obj gs =>
      rw [Projection.apply]
      split <;> rfl
    | _ => cases h

theorem isObj_exposeId {d : Value} (h : d.isObj = true) : d.exposeId.isObj = true := by
  cases d with
  | obj fs =>
    rw [exposeId]
    split <;> rfl
  | _ => cases h

end Value

end DocQuery
