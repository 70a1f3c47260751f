import DocQuery.Proofs.Objects
import DocQuery.Proofs.Reading

/-!
# Identifiers of stored documents

Insertions look for the identifier among the stored ones; updates and upserts do not.  So identifiers stay apart as long
as updates keep those of the documents they change and upserts take none that is there (`UniqueIds.one`), through every
run of a store (`stored_ids_unique`).  For updates and upserts that do otherwise there are documents on which they break
it.
-/
namespace DocQuery

namespace Write

/-! ## Equal identifiers -/

theorem sameId_some {a b x y : Value} (ha : a.field? "_id" = some x) (hb : b.field? "_id" = some y) :
    sameId a b = (x == y) := by
  rw [sameId, ha, hb]

theorem sameId_self {d x : Value} (hd : d.WellFormed) (h : d.field? "_id" = some x) : sameId d d = true := by
  rw [sameId_some h h]
  exact Value.beq_self (hd.field? h)

theorem sameId_symm {a b : Value} (ha : a.WellFormed) (hb : b.WellFormed) (h : sameId a b = true) :
    sameId b a = true := by
  unfold sameId at h ⊢
  cases hx : a.field? "_id" with
  | none =>
    cases hy : b.field? "_id" with
    | none => rfl
    | some y => simp [hx, hy] at h
  | some x =>
    cases hy : b.field? "_id" with
    | none => simp [hx, hy] at h
    | some y =>
      simp only [hx, hy] at h
      exact Value.beq_symm (ha.field? hx) (hb.field? hy) h

theorem sameId_trans {a b c : Value} (ha : a.WellFormed) (h : sameId a b = true) (h' : sameId b c = true) :
    sameId a c = true := by
  unfold sameId at h h' ⊢
  cases hx : a.field? "_id" with
  | none =>
    cases hy : b.field? "_id" with
    | none =>
      rw [hy] at h'
      exact h'
    | some y => simp [hx, hy] at h
  | some x =>
    cases hy : b.field? "_id" with
    | none => simp [hx, hy] at h
    | some y =>
      cases hz : c.field? "_id" with
      | none => simp [hy, hz] at h'
      | some z =>
        simp only [hx, hy, hz] at h h' ⊢
        exact Value.beq_trans (ha.field? hx) h h'

theorem field?_id_of_sameId {a b y : Value} (hb : b.field? "_id" = some y) (h : sameId a b = true) :
    ∃ x, a.field? "_id" = some x := by
  cases hx : a.field? "_id" with
  | none => simp [sameId, hx, hb] at h
  | some x => exact ⟨x, rfl⟩

structure Stored (d : Value) : Prop where
  wellFormed : d.WellFormed
  identified : ∃ id, d.field? "_id" = some id

structure UniqueIds (docs : List Value) : Prop where
  stored : ∀ d ∈ docs, Stored d
  apart : docs.Pairwise fun a b => sameId a b = false

theorem uniqueIds_nil : UniqueIds [] := ⟨fun _ hd => (by cases hd), .nil⟩

theorem UniqueIds.sublist {docs docs' : List Value} (h : UniqueIds docs) (hs : docs'.Sublist docs) :
    UniqueIds docs' := ⟨fun d hd => h.stored d (hs.subset hd), h.apart.sublist hs⟩

/-- **A document can be added just if no other one has its identifier.** -/
theorem uniqueIds_append {docs : List Value} (h : UniqueIds docs) {d : Value} (hd : Stored d) :
    UniqueIds (docs ++ [d]) ↔ ∀ e ∈ docs, sameId e d = false := by
  constructor
  · intro hall e he
    exact (List.pairwise_append.1 hall.apart).2.2 e he d List.mem_cons_self
  · intro hnew
    refine ⟨fun e he => ?_, List.pairwise_append.2 ⟨h.apart, List.pairwise_singleton _ _, fun e he e' he' => ?_⟩⟩
    · rcases List.mem_append.1 he with he | he
      · exact h.stored e he
      · exact List.mem_singleton.1 he ▸ hd
    · exact List.mem_singleton.1 he' ▸ hnew e he

/-! ## Insertions -/

theorem ensureId_given {d v : Value} (supply : IdSupply) (h : d.field? "_id" = some v) :
    ensureId supply d = (d, supply) := by
  cases d with
  | obj fs =>
    have hhas : Keyed.has fs "_id" = true := by
      rw [Keyed.has, show Keyed.get? fs "_id" = some v from h]
      rfl
    rw [ensureId, if_pos hhas]
  | _ => cases h

theorem ensureId_obj {fs : Fields} (supply : IdSupply) (h : Keyed.get? fs "_id" = none) :
    ensureId supply (.obj fs) = (.obj (Keyed.set fs "_id" supply.take.1.toValue), supply.take.2) := by
  have hhas : Keyed.has fs "_id" = false := by
    rw [Keyed.has, h]
    rfl
  rw [ensureId, hhas]
  rfl

theorem ensureId_missing {d : Value} (supply : IdSupply) (ho : d.isObj = true) (h : d.field? "_id" = none) :
    (ensureId supply d).1.field? "_id" = some supply.take.1.toValue ∧ (ensureId supply d).2 = supply.take.2 := by
  cases d with
  | obj fs =>
    rw [ensureId_obj supply h]
    exact ⟨Keyed.get?_set_self fs "_id" _, rfl⟩
  | _ => cases ho

theorem wellFormed_ensureId (supply : IdSupply) {d : Value} (hd : d.WellFormed) :
    (ensureId supply d).1.WellFormed := by
  cases d with
  | obj fs =>
    rw [ensureId]
    split
    · exact hd
    · exact hd.set "_id" (.single (.str _))
  | _ => exact hd

theorem stored_ensureId {supply : IdSupply} {d : Value} (hd : d.WellFormed) (ho : d.isObj = true) :
    Stored (ensureId supply d).1 := by
  refine ⟨wellFormed_ensureId supply hd, ?_⟩
  cases hid : d.field? "_id" with
  | none => exact ⟨_, (ensureId_missing supply ho hid).1⟩
  | some id =>
    rw [ensureId_given supply hid]
    exact ⟨id, hid⟩

theorem UniqueIds.insert {ns : Namespace} {document : Value} {st : WriteState} (h : UniqueIds st.docs)
    (hd : document.WellFormed) : UniqueIds (insert ns document st).1.docs := by
  rw [Write.insert]
  simp only
  split
  · exact h
  · rename_i id hid
    have hstored : Stored (ensureId st.supply document).1 := by
      cases document with
      | obj fs => exact stored_ensureId hd rfl
      | _ => cases hid
    split
    · exact h
    · rename_i hnone
      refine (uniqueIds_append h hstored).2 fun e he => ?_
      rw [Bool.eq_false_iff]
      intro hsame
      refine hnone (List.any_eq_true.2 ⟨e, he, ?_⟩)
      exact sameId_symm (h.stored e he).wellFormed hstored.wellFormed hsame

/-! ## Updates -/

section

variable {f : Filter} {change : Value} {multi : Bool}

/-- A change keeps the identifiers of those documents that a filter holds on. -/
def KeepsIds (f : Filter) (change : Value) (docs : List Value) : Prop :=
  ∀ d ∈ docs, f.holds d = true → sameId (Change.apply change d).1 d = true

def Renewed (new old : Value) : Prop := new.WellFormed ∧ sameId new old = true

theorem Stored.renewed {d : Value} (h : Stored d) : Renewed d d := by
  obtain ⟨hwf, id, hid⟩ := h
  exact ⟨hwf, sameId_self hwf hid⟩

/-- **An update leaves a document as it is, or puts in its place what the change makes of it.** -/
theorem forall₂_updateMatches {R : Value → Value → Prop} : ∀ {docs : List Value}, (∀ d ∈ docs, R d d) →
    (∀ d ∈ docs, f.holds d = true → R (Change.apply change d).1 d) →
    List.Forall₂ R (updateMatches f change multi docs).docs docs
  | [], _, _ => .nil
  | d :: ds, hkept, hchanged => by
    obtain ⟨hd, hds⟩ := List.forall_mem_cons.1 hkept
    obtain ⟨hnew, hnews⟩ := List.forall_mem_cons.1 hchanged
    have hrest : List.Forall₂ R (updateMatches f change multi ds).docs ds := forall₂_updateMatches hds hnews
    rw [updateMatches]
    split
    · rename_i hholds
      specialize hnew hholds
      split
      · rename_i new e happly
        rw [happly] at hnew
        exact .cons hnew (List.forall₂_same.2 hds)
      · rename_i new changed happly
        rw [happly] at hnew
        refine .cons hnew ?_
        split
        · exact hrest
        · exact List.forall₂_same.2 hds
    · exact .cons hd hrest

theorem exists_of_forall₂ {R : Value → Value → Prop} : ∀ {new old : List Value}, List.Forall₂ R new old →
    ∀ e ∈ new, ∃ d ∈ old, R e d
  | _, _, .nil, e, he => by cases he
  | _, _, .cons h hrest, e, he => by
    rcases List.mem_cons.1 he with rfl | he
    · exact ⟨_, List.mem_cons_self, h⟩
    · obtain ⟨d, hd, hed⟩ := exists_of_forall₂ hrest e he
      exact ⟨d, List.mem_cons_of_mem _ hd, hed⟩

/-- **Updates that keep identifiers put every document in the place of one with its identifier.** -/
theorem renewed_updateMatches (hc : change.WellFormed) {docs : List Value} (hs : ∀ d ∈ docs, Stored d)
    (hk : KeepsIds f change docs) : List.Forall₂ Renewed (updateMatches f change multi docs).docs docs := by
  refine forall₂_updateMatches (fun d hd => (hs d hd).renewed) fun d hd hholds => ⟨?_, hk d hd hholds⟩
  exact Change.wellFormed_apply hc (hs d hd).wellFormed

theorem UniqueIds.renewed : ∀ {new old : List Value}, UniqueIds old → List.Forall₂ Renewed new old → UniqueIds new
  | _, _, _, .nil => uniqueIds_nil
  | e :: es, d :: ds, h, .cons hed hrest => by
    obtain ⟨hfar, hds⟩ := List.pairwise_cons.1 h.apart
    have hs : ∀ x ∈ d :: ds, Stored x := h.stored
    have ih := UniqueIds.renewed ⟨fun x hx => hs x (List.mem_cons_of_mem _ hx), hds⟩ hrest
    have hd := hs d List.mem_cons_self
    refine ⟨fun x hx => ?_, List.pairwise_cons.2 ⟨fun x hx => ?_, ih.apart⟩⟩
    · rcases List.mem_cons.1 hx with rfl | hx
      · obtain ⟨id, hid⟩ := hd.identified
        exact ⟨hed.1, field?_id_of_sameId hid hed.2⟩
      · exact ih.stored x hx
    · -- the identifiers of `d` and of what `x` stems from would be equal
      obtain ⟨y, hy, hxy⟩ := exists_of_forall₂ hrest x hx
      rw [Bool.eq_false_iff]
      intro hsame
      have hde : sameId d e = true := sameId_symm hed.1 hd.wellFormed hed.2
      have hdy : sameId d y = true := sameId_trans hd.wellFormed (sameId_trans hd.wellFormed hde hsame) hxy.2
      rw [hfar y hy] at hdy
      cases hdy

theorem UniqueIds.updateMatches {docs : List Value} (h : UniqueIds docs) (hc : change.WellFormed)
    (hk : KeepsIds f change docs) : UniqueIds (updateMatches f change multi docs).docs :=
  h.renewed (renewed_updateMatches hc h.stored hk)

theorem updateMatches_of_none : ∀ {docs : List Value}, (∀ d ∈ docs, f.holds d = false) →
    updateMatches f change multi docs = { docs := docs }
  | [], _ => rfl
  | d :: ds, h => by
    obtain ⟨hd, hds⟩ := List.forall_mem_cons.1 h
    rw [Write.updateMatches, hd, updateMatches_of_none hds]
    rfl

theorem holds_of_matched_eq_zero : ∀ {docs : List Value}, (Write.updateMatches f change multi docs).matched = 0 →
    ∀ d ∈ docs, f.holds d = false
  | [], _, _, hd => by cases hd
  | d :: ds, h, e, he => by
    rw [Write.updateMatches] at h
    split at h
    · split at h
      · cases h
      · cases h
    · rename_i hd
      rcases List.mem_cons.1 he with rfl | he
      · simpa using hd
      · exact holds_of_matched_eq_zero h e he

end

/-! ## Upserts -/

def upserted? (filter change : Value) (supply : IdSupply) : Option Value :=
  match Change.apply change (seed (.obj []) filter) with
  | (doc, .ok _) => some (ensureId supply doc).1
  | (_, .error _) => none

theorem docs_upsert (filter change : Value) (st : WriteState) :
    (upsert filter change st).1.docs = st.docs ++ (upserted? filter change st.supply).toList := by
  unfold upsert upserted?
  rcases Change.apply change (seed (.obj []) filter) with ⟨doc, e | changed⟩
  · exact (List.append_nil _).symm
  · rfl

theorem eq_of_upserted? {filter change new : Value} {supply : IdSupply}
    (hnew : upserted? filter change supply = some new) :
    new = (ensureId supply (Change.apply change (seed (.obj []) filter)).1).1 := by
  unfold upserted? at hnew
  split at hnew
  · rename_i doc changed happly
    rw [happly]
    exact (Option.some.inj hnew).symm
  · cases hnew

theorem isObj_changed_seed (filter change : Value) : (Change.apply change (seed (.obj []) filter)).1.isObj = true :=
  Change.isObj_apply change (isObj_seed filter rfl)

theorem stored_upserted {filter change new : Value} {supply : IdSupply} (hf : filter.WellFormed)
    (hc : change.WellFormed) (hnew : upserted? filter change supply = some new) : Stored new := by
  have hempty : (Value.obj []).WellFormed := .obj List.nodup_nil fun _ he => by cases he
  have hseed := edited_seed filter hf (.refl : Change.Edited anywhere (.obj []) (.obj []))
  rw [eq_of_upserted? hnew]
  exact stored_ensureId (Change.wellFormed_apply hc (hseed.wellFormed hempty)) (isObj_changed_seed filter change)

theorem UniqueIds.upsert {filter change : Value} {st : WriteState} (h : UniqueIds st.docs) (hf : filter.WellFormed)
    (hc : change.WellFormed)
    (hfree : ∀ new, upserted? filter change st.supply = some new → ∀ d ∈ st.docs, sameId d new = false) :
    UniqueIds (upsert filter change st).1.docs := by
  rw [docs_upsert]
  cases hnew : upserted? filter change st.supply with
  | none => rwa [Option.toList_none, List.append_nil]
  | some new => exact (uniqueIds_append h (stored_upserted hf hc hnew)).2 (hfree new hnew)

/-! ## Bulk writes -/

theorem removeFirst_sublist (f : Filter) (docs : List Value) : (removeFirst f docs).Sublist docs := by
  induction docs with
  | nil => exact .slnil
  | cons d ds ih =>
    rw [removeFirst]
    split
    · exact List.sublist_cons_self d ds
    · exact ih.cons_cons d

end Write

def WriteModel.WellFormed : WriteModel → Prop
  | .insert document => document.WellFormed
  | .update filter change _ _ => filter.WellFormed ∧ change.WellFormed
  | .delete filter _ => filter.WellFormed

namespace Write

/-- A write is careful with identifiers: an update keeps those of the documents that it changes, and an upsert takes
none that is there. -/
def Careful (st : WriteState) : WriteModel → Prop
  | .update filter change _ wantsUpsert => ∀ f, Filter.ofValue filter = .ok f →
      KeepsIds f change st.docs ∧ (wantsUpsert = true → (∀ d ∈ st.docs, f.holds d = false) →
        ∀ new, upserted? filter change st.supply = some new → ∀ d ∈ st.docs, sameId d new = false)
  | _ => True

/-- The writes of a bulk are careful, each when its turn comes. -/
def AllCareful (ns : Namespace) : BulkWrite → WriteState → Prop
  | [], _ => True
  | w :: ws, st => Careful st w ∧ ((one ns st w).2 = none → AllCareful ns ws (one ns st w).1)

section

variable {ns : Namespace} {st : WriteState}

theorem UniqueIds.update {filter change : Value} {multi wantsUpsert : Bool} (h : UniqueIds st.docs)
    (hf : filter.WellFormed) (hc : change.WellFormed)
    (hcareful : Careful st (.update filter change multi wantsUpsert)) :
    UniqueIds (update filter change multi wantsUpsert st).1.docs := by
  rw [Write.update]
  split
  · exact h
  · rename_i f hread
    obtain ⟨hkeeps, hfree⟩ := hcareful f hread
    have hupdated : UniqueIds (Write.updateMatches f change multi st.docs).docs := h.updateMatches hc hkeeps
    simp only
    split
    · exact hupdated
    · split
      · rename_i hwants
        have hnone := holds_of_matched_eq_zero hwants.1
        rw [updateMatches_of_none hnone]
        exact UniqueIds.upsert h hf hc (hfree hwants.2 hnone)
      · exact hupdated

/-- **A careful write keeps identifiers apart.** -/
theorem UniqueIds.one {w : WriteModel} (h : UniqueIds st.docs) (hw : w.WellFormed) (hcareful : Careful st w) :
    UniqueIds (one ns st w).1.docs := by
  cases w with
  | insert document => exact h.insert hw
  | update filter change multi wantsUpsert => exact h.update hw.1 hw.2 hcareful
  | delete filter limit =>
    rw [Write.one, delete]
    split
    · exact h
    · simp only
      split
      · exact h.sublist (removeFirst_sublist _ _)
      · exact h.sublist List.filter_sublist

theorem UniqueIds.all : ∀ {b : BulkWrite} {st : WriteState}, UniqueIds st.docs → (∀ w ∈ b, w.WellFormed) →
    AllCareful ns b st → UniqueIds (all ns b st).1.docs
  | [], _, h, _, _ => h
  | w :: ws, st, h, hw, ⟨hcareful, hrest⟩ => by
    have hone : UniqueIds (Write.one ns st w).1.docs := UniqueIds.one h (hw w List.mem_cons_self) hcareful
    rw [Write.all]
    rcases hon : Write.one ns st w with ⟨st', _ | e⟩
    · rw [hon] at hone hrest
      exact UniqueIds.all hone (fun x hx => hw x (List.mem_cons_of_mem _ hx)) (hrest rfl)
    · rw [hon] at hone
      exact hone

end

end Write

/-! ## Which updates and upserts are safe -/

namespace Write

section

variable {f : Filter} {change : Value}

theorem keepsIds_of_sparesId (hc : change.WellFormed) (hspares : Change.SparesId change) {docs : List Value}
    (hs : ∀ d ∈ docs, Stored d) : KeepsIds f change docs := fun d hd _ => by
  obtain ⟨hwf, id, hid⟩ := hs d hd
  rw [sameId_some (Change.field?_id_apply hc hwf hid hspares) hid]
  exact Value.beq_self (hwf.field? hid)

theorem docs_update_first {filter : Value} (hread : Filter.ofValue filter = .ok f) {wantsUpsert : Bool}
    {supply : IdSupply} {d : Value} (hd : f.holds d = true) (ds : List Value) :
    (update filter change false wantsUpsert { docs := d :: ds, supply := supply }).1.docs =
      (Change.apply change d).1 :: ds := by
  simp only [update, hread, updateMatches, hd, if_true]
  rcases Change.apply change d with ⟨new, e | changed⟩ <;> rfl

theorem docs_update_none {filter : Value} (hread : Filter.ofValue filter = .ok f) {multi : Bool} {supply : IdSupply}
    {docs : List Value} (hnone : ∀ d ∈ docs, f.holds d = false) :
    (update filter change multi true { docs := docs, supply := supply }).1.docs =
      docs ++ (upserted? filter change supply).toList := by
  simp only [update, hread, updateMatches_of_none hnone, and_self, if_true, docs_upsert]

theorem uniqueIds_singleton {d : Value} (h : Stored d) : UniqueIds [d] :=
  ⟨fun _ he => List.mem_singleton.1 he ▸ h, List.pairwise_singleton _ _⟩

theorem stored_only {id : Value} (h : id.WellFormed) : Stored (.obj [("_id", id)]) := by
  refine ⟨.obj (by simp [Keyed.keys]) fun e he => ?_, id, rfl⟩
  rw [List.mem_singleton.1 he]
  exact h

theorem sameId_of_uniqueIds {d : Value} (hd : Stored d)
    (h : ∀ ds, UniqueIds (d :: ds) → UniqueIds ((Change.apply change d).1 :: ds)) :
    sameId (Change.apply change d).1 d = true := by
  obtain ⟨hwf, id, hid⟩ := (h [] (uniqueIds_singleton hd)).stored _ List.mem_cons_self
  have hother : Stored (.obj [("_id", id)]) := stored_only (hwf.field? hid)
  have hsame : sameId (Change.apply change d).1 (.obj [("_id", id)]) = true := by
    rw [sameId_some hid rfl]
    exact Value.beq_self (hwf.field? hid)
  refine Decidable.byContradiction fun hdiffer => ?_
  have hapart : sameId d (.obj [("_id", id)]) = false := by
    rw [Bool.eq_false_iff]
    intro hdother
    exact hdiffer (sameId_trans hwf hsame (sameId_symm hd.wellFormed hother.wellFormed hdother))
  have htwo : UniqueIds [d, .obj [("_id", id)]] :=
    (uniqueIds_append (uniqueIds_singleton hd) hother).2 fun e he => by rwa [List.mem_singleton.1 he]
  have hfar := (List.pairwise_cons.1 (h _ htwo).apart).1 _ List.mem_cons_self
  rw [hsame] at hfar
  cases hfar

/-- **An update keeps identifiers apart on all documents just if it keeps those of the documents it changes, and an
upsert just if besides its filter holds on every document with the identifier that it takes.** -/
theorem uniqueIds_update_iff {filter : Value} {wantsUpsert : Bool} {supply : IdSupply} (hf : filter.WellFormed)
    (hc : change.WellFormed) (hread : Filter.ofValue filter = .ok f) :
    (∀ docs multi, UniqueIds docs →
      UniqueIds (update filter change multi wantsUpsert { docs := docs, supply := supply }).1.docs) ↔
    (∀ d, Stored d → f.holds d = true → sameId (Change.apply change d).1 d = true) ∧
      (wantsUpsert = true → ∀ new, upserted? filter change supply = some new →
        ∀ d, Stored d → sameId d new = true → f.holds d = true) := by
  constructor
  · intro h
    refine ⟨fun d hd hholds => ?_, fun hwants new hnew d hd hsame => ?_⟩
    · refine sameId_of_uniqueIds hd fun ds hds => ?_
      have hall := h (d :: ds) false hds
      rwa [docs_update_first hread hholds] at hall
    · refine Decidable.byContradiction fun hno => ?_
      have hnone : ∀ e ∈ [d], f.holds e = false := fun e he => List.mem_singleton.1 he ▸ Bool.eq_false_iff.2 hno
      have htwo := h [d] false (uniqueIds_singleton hd)
      rw [hwants, docs_update_none hread hnone, hnew, Option.toList_some,
        uniqueIds_append (uniqueIds_singleton hd) (stored_upserted hf hc hnew)] at htwo
      rw [htwo d List.mem_cons_self] at hsame
      cases hsame
  · rintro ⟨hkeeps, hfree⟩ docs multi hunique
    refine hunique.update hf hc fun f' hread' => ?_
    obtain rfl : f' = f := Except.ok.inj (hread'.symm.trans hread)
    refine ⟨fun d hd => hkeeps d (hunique.stored d hd), fun hwants hnone new hnew d hd => ?_⟩
    rw [Bool.eq_false_iff]
    intro hsame
    have hholds := hfree hwants new hnew d (hunique.stored d hd) hsame
    rw [hnone d hd] at hholds
    cases hholds

end

end Write

/-! ## Runs of a store -/

namespace Store

def UniqueIds (s : Store) : Prop := ∀ e ∈ s, Write.UniqueIds e.2

theorem UniqueIds.documents {s : Store} (h : s.UniqueIds) (ns : Namespace) : Write.UniqueIds (s.documents ns) := by
  rw [Store.documents]
  cases hget : Keyed.get? s ns.text with
  | none => exact Write.uniqueIds_nil
  | some docs => exact h _ (Keyed.mem_of_get? hget)

theorem UniqueIds.write {s : Store} (h : s.UniqueIds) {supply : IdSupply} {ns : Namespace} {b : BulkWrite}
    (hb : ∀ w ∈ b, w.WellFormed) (hcareful : Write.AllCareful ns b { docs := s.documents ns, supply := supply }) :
    (s.write supply ns b).1.UniqueIds := fun e he => by
  rcases Keyed.mem_set he with rfl | he
  · exact Write.UniqueIds.all (h.documents ns) hb hcareful
  · exact h e he

theorem UniqueIds.drop {s : Store} (h : s.UniqueIds) (ns : Namespace) : (s.drop ns).UniqueIds :=
  fun e he => h e ((Keyed.erase_sublist s ns.text).subset he)

end Store

namespace Memory

inductive Call where
  | write (ns : Namespace) (b : BulkWrite)
  | command (database : String) (c : Command)

namespace Call

def on : Call → Memory → Memory
  | write ns b, m => (m.write ns b).2
  | command database c, m => (m.command database c).2

def WellFormed : Call → Prop
  | write _ b => ∀ w ∈ b, w.WellFormed
  | command _ _ => True

def Careful (m : Memory) : Call → Prop
  | write ns b => Write.AllCareful ns b { docs := m.store.documents ns, supply := m.supply }
  | command _ _ => True

end Call

def after : List Call → Memory → Memory
  | [], m => m
  | call :: calls, m => after calls (call.on m)

def AllCareful : List Call → Memory → Prop
  | [], _ => True
  | call :: calls, m => call.Careful m ∧ AllCareful calls (call.on m)

/-- **A call writes to a collection, drops one, or leaves the store as it is.** -/
theorem store_on {P : Store → Prop} {m : Memory} {call : Call} (h : P m.store)
    (hwrite : ∀ ns b, call = .write ns b → P (m.store.write m.supply ns b).1) (hdrop : ∀ ns, P (m.store.drop ns)) :
    P (call.on m).store := by
  cases call with
  | write ns b => exact hwrite ns b rfl
  | command database c =>
    rw [Call.on, Memory.command]
    cases hrun : m.store.command database c with
    | error e => exact h
    | ok out =>
      obtain ⟨s, rows⟩ := out
      rcases Store.command_eq_ok hrun with rfl | ⟨-, ns, rfl⟩
      · exact h
      · exact hdrop ns

theorem uniqueIds_on {m : Memory} {call : Call} (h : m.store.UniqueIds) (hw : call.WellFormed)
    (hcareful : call.Careful m) : (call.on m).store.UniqueIds := by
  refine store_on h (fun ns b hcall => ?_) h.drop
  subst hcall
  exact h.write hw hcareful

theorem uniqueIds_after : ∀ {calls : List Call} {m : Memory}, m.store.UniqueIds →
    (∀ call ∈ calls, call.WellFormed) → AllCareful calls m → (after calls m).store.UniqueIds
  | [], _, h, _, _ => h
  | call :: calls, m, h, hw, ⟨hcareful, hrest⟩ => by
    have hone := uniqueIds_on h (hw call List.mem_cons_self) hcareful
    have hall := uniqueIds_after hone (fun c hc => hw c (List.mem_cons_of_mem _ hc)) hrest
    exact hall

/-- **Identifiers in a store stay apart as long as its writes are careful.**  Insertions, deletions and commands always
are, and so are updates whose operators spare the identifier, and replacements.  In general an update is safe on all
documents just if it keeps the identifiers of those that it changes, and an upsert just if besides its filter holds on
every document with the identifier that it takes. -/
theorem stored_ids_unique (m : Memory) (calls : List Call) (hm : m.store = []) (hw : ∀ call ∈ calls, call.WellFormed)
    (hcareful : AllCareful calls m) : (after calls m).store.UniqueIds ∧
    (∀ f change, change.WellFormed → Change.SparesId change →
      ∀ docs, (∀ d ∈ docs, Write.Stored d) → Write.KeepsIds f change docs) ∧
    (∀ filter change f wantsUpsert supply, filter.WellFormed → change.WellFormed → Filter.ofValue filter = .ok f →
      ((∀ docs multi, Write.UniqueIds docs →
          Write.UniqueIds (Write.update filter change multi wantsUpsert { docs := docs, supply := supply }).1.docs) ↔
        (∀ d, Write.Stored d → f.holds d = true → Write.sameId (Change.apply change d).1 d = true) ∧
          (wantsUpsert = true → ∀ new, Write.upserted? filter change supply = some new →
            ∀ d, Write.Stored d → Write.sameId d new = true → f.holds d = true))) := by
  refine ⟨uniqueIds_after (fun e he => ?_) hw hcareful,
    fun f change hc hspares docs hs => Write.keepsIds_of_sparesId hc hspares hs,
    fun filter change f wantsUpsert supply hf hc hread => Write.uniqueIds_update_iff hf hc hread⟩
  rw [hm] at he
  cases he

def unused : Memory := { supply := ⟨ObjectId.stamped 0, 0⟩ }

def counts (fs : List (String × Int)) : Value := .obj (fs.map fun e => (e.1, .int e.2))

theorem wellFormed_counts {fs : List (String × Int)} (h : (fs.map Prod.fst).Nodup) : (counts fs).WellFormed := by
  refine .obj ?_ fun e he => ?_
  · rwa [Keyed.keys, List.map_map]
  · obtain ⟨x, -, rfl⟩ := List.mem_map.1 he
    exact .int _

def upserting (id : Int) : List Call :=
  [.write ⟨"app", "t"⟩ [.insert (counts [("_id", 1), ("k", 1)])],
    .write ⟨"app", "t"⟩ [.update (counts [("_id", id), ("k", 2)]) (.single "$set" (counts [("x", 1)])) false true]]

theorem wellFormed_upserting (id : Int) : ∀ call ∈ upserting id, call.WellFormed := by
  have hinsert : (counts [("_id", 1), ("k", 1)]).WellFormed := wellFormed_counts (by decide)
  have hfilter : (counts [("_id", id), ("k", 2)]).WellFormed := wellFormed_counts (by simp)
  have hchange : (Value.single "$set" (counts [("x", 1)])).WellFormed :=
    .single (wellFormed_counts (by decide))
  exact List.forall_mem_cons.2 ⟨List.forall_mem_singleton.2 hinsert,
    List.forall_mem_singleton.2 (List.forall_mem_singleton.2 ⟨hfilter, hchange⟩)⟩

theorem stored_ids_unique_upserting : unused.store = [] ∧ (∀ call ∈ upserting 2, call.WellFormed) ∧
    AllCareful (upserting 2) unused ∧ (after (upserting 2) unused).store.UniqueIds := by
  have hcareful : AllCareful (upserting 2) unused := by
    refine ⟨⟨trivial, fun _ => trivial⟩, ⟨fun f hf => ?_, fun _ => trivial⟩, trivial⟩
    have hread : Except.ok _ = Except.ok f := hf
    cases hread
    refine ⟨fun d hd hholds => ?_, fun _ _ new hnew d hd => ?_⟩
    · obtain rfl := List.mem_singleton.1 hd
      cases hholds
    · obtain rfl := List.mem_singleton.1 hd
      cases hnew
      rfl
  exact ⟨rfl, wellFormed_upserting 2, hcareful,
    (stored_ids_unique unused (upserting 2) rfl (wellFormed_upserting 2) hcareful).1⟩

/-- **An upsert may take an identifier that is there.** -/
theorem upsert_repeats_id : (∀ call ∈ upserting 1, call.WellFormed) ∧
    ¬ ((after (upserting 1) unused).store.documents ⟨"app", "t"⟩).Pairwise fun a b => Write.sameId a b = false := by
  refine ⟨wellFormed_upserting 1, fun hapart => ?_⟩
  have hdocs : (after (upserting 1) unused).store.documents ⟨"app", "t"⟩ =
      [counts [("_id", 1), ("k", 1)], counts [("_id", 1), ("k", 2), ("x", 1)]] := rfl
  rw [hdocs] at hapart
  have hfar := (List.pairwise_cons.1 hapart).1 _ List.mem_cons_self
  rw [show Write.sameId _ _ = true from rfl] at hfar
  cases hfar

end Memory

end DocQuery
