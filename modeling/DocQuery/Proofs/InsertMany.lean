import DocQuery.Proofs.Bulk
import DocQuery.Proofs.NativeId
import DocQuery.Proofs.StoredId

/-!
# Bulks of insertions

A document that is inserted repeats an identifier if a stored document has it, or one before it in the bulk
(`Write.Repeats`).  A bulk of insertions stores the documents in front of the first one that repeats, and fails there;
if none does it stores them all (`Store.inserts_store_prefix`).  Documents without an identifier get one when they are
queued or when they are inserted: what is stored is the same.
-/
namespace DocQuery

/-! ## Identifiers that callers give -/

namespace Value

/-- What callers may give as an identifier: a whole number of 64 bits with a sign, a text, a native identifier. -/
inductive IsIdentifier : Value → Prop
  | int {n : Int} (low : -Int.pow 2 63 ≤ n) (high : n < Int.pow 2 63) : IsIdentifier (.int n)
  | str (s : String) : IsIdentifier (.str s)
  | native {v : Value} {id : ObjectId} (h : ObjectId.ofValue? v = some id) : IsIdentifier v

variable {v w : Value}

theorem IsIdentifier.ofValue?_eq_some (h : v.IsIdentifier) : ∃ id, DocumentId.ofValue? v = some id := by
  cases h with
  | @int n low high =>
    refine ⟨.int n, ?_⟩
    show (Value.signed? (.int n)).map DocumentId.int = some (.int n)
    rw [signed?, if_pos ⟨low, high⟩]
    rfl
  | str s => exact ⟨.str s, rfl⟩
  | @native v id h =>
    refine ⟨.native id, ?_⟩
    unfold DocumentId.ofValue?
    rw [h]

theorem IsIdentifier.beq_iff (h : v.IsIdentifier) : v.beq w = true ↔ v = w := by
  cases h with
  | int => exact beq_int_iff
  | str s => exact beq_str_iff
  | native h =>
    obtain ⟨s, rfl, -⟩ := ObjectId.eq_single_of_ofValue? h
    exact beq_single_str_iff

theorem isIdentifier_toValue (id : ObjectId) : id.toValue.IsIdentifier := .native (ObjectId.ofValue?_toValue id)

end Value

namespace Write

/-- A document that can be inserted: an object whose identifier, if it has one, is usable. -/
structure Insertable (d : Value) : Prop where
  isObj : d.isObj = true
  identifier : ∀ v, d.field? "_id" = some v → v.IsIdentifier

def idsOf (docs : List Value) : List Value := docs.filterMap (·.field? "_id")

/-- A document of a bulk repeats an identifier: that of a stored document, or of one before it. -/
def Repeats (docs ds : List Value) (i : Nat) : Prop :=
  ∃ v, ds[i]?.bind (·.field? "_id") = some v ∧ v ∈ idsOf (docs ++ ds.take i)

/-- The documents as they are inserted: those without an identifier have got the next one of the supply. -/
def identified : IdSupply → List Value → List Value
  | _, [] => []
  | supply, d :: ds => (ensureId supply d).1 :: identified (ensureId supply d).2 ds

def madeUpFor : IdSupply → List Value → List ObjectId
  | _, [] => []
  | supply, d :: ds =>
    match d.field? "_id" with
    | some _ => madeUpFor supply ds
    | none => supply.take.1 :: madeUpFor supply.take.2 ds

/-- The identifiers that are made up are different ones, and no document has any of them. -/
structure FreshFor (supply : IdSupply) (docs ds : List Value) : Prop where
  nodup : (madeUpFor supply ds).Nodup
  unused : ∀ id ∈ madeUpFor supply ds, id.toValue ∉ idsOf (docs ++ ds)

section

variable {docs ds : List Value} {d v : Value} {supply : IdSupply}

/-! ## Documents with identifiers -/

theorem idsOf_append (docs ds : List Value) : idsOf (docs ++ ds) = idsOf docs ++ idsOf ds := List.filterMap_append

theorem idsOf_given (h : d.field? "_id" = some v) : idsOf [d] = [v] := by
  simp [idsOf, h]

theorem idsOf_missing (h : d.field? "_id" = none) : idsOf [d] = [] := by
  simp [idsOf, h]

theorem Insertable.ensureId (hd : Insertable d) (supply : IdSupply) :
    ∃ v, (ensureId supply d).1.field? "_id" = some v ∧ v.IsIdentifier := by
  cases h : d.field? "_id" with
  | some v =>
    rw [ensureId_given supply h]
    exact ⟨v, h, hd.identifier v h⟩
  | none => exact ⟨_, (ensureId_missing supply hd.isObj h).1, Value.isIdentifier_toValue _⟩

theorem identified_given : ∀ {ds : List Value}, (∀ d ∈ ds, ∃ v, d.field? "_id" = some v) → ∀ supply : IdSupply,
    identified supply ds = ds
  | [], _, _ => rfl
  | d :: ds, h, supply => by
    obtain ⟨⟨v, hv⟩, hds⟩ := List.forall_mem_cons.1 h
    rw [identified, ensureId_given supply hv, identified_given hds]

theorem given_identified : ∀ {ds : List Value}, (∀ d ∈ ds, Insertable d) → ∀ supply : IdSupply,
    ∀ d ∈ identified supply ds, ∃ v, d.field? "_id" = some v ∧ v.IsIdentifier
  | [], _, _ => fun _ hd => by cases hd
  | _ :: _, h, supply => by
    obtain ⟨hd, hds⟩ := List.forall_mem_cons.1 h
    exact List.forall_mem_cons.2 ⟨hd.ensureId supply, given_identified hds _⟩

theorem length_identified : ∀ (supply : IdSupply) (ds : List Value), (identified supply ds).length = ds.length
  | _, [] => rfl
  | _, _ :: ds => congrArg (· + 1) (length_identified _ ds)

/-! ## Documents that repeat an identifier -/

theorem repeats_zero : Repeats docs (d :: ds) 0 ↔ ∃ v, d.field? "_id" = some v ∧ v ∈ idsOf docs := by
  simp [Repeats]

theorem repeats_succ (i : Nat) : Repeats docs (d :: ds) (i + 1) ↔ Repeats (docs ++ [d]) ds i := by
  simp [Repeats]

theorem repeats_congr {docs' : List Value} (h : ∀ v ∈ idsOf ds, v ∈ idsOf docs ↔ v ∈ idsOf docs') (i : Nat) :
    Repeats docs ds i ↔ Repeats docs' ds i := by
  refine exists_congr fun v => and_congr_right fun hv => ?_
  obtain ⟨d, hd, hid⟩ := Option.bind_eq_some_iff.1 hv
  have hmem : v ∈ idsOf ds := List.mem_filterMap.2 ⟨d, List.mem_of_getElem? hd, hid⟩
  rw [idsOf_append, idsOf_append, List.mem_append, List.mem_append, h v hmem]

/-- **Identifiers that are made up repeat nothing and are not repeated.** -/
theorem repeats_identified : ∀ {ds docs : List Value} {supply : IdSupply}, (∀ d ∈ ds, d.isObj = true) →
    FreshFor supply docs ds → ∀ i, Repeats docs (identified supply ds) i ↔ Repeats docs ds i
  | [], _, _, _, _, _ => Iff.rfl
  | d :: ds, docs, supply, ho, hfresh, i => by
    obtain ⟨hd, ho⟩ := List.forall_mem_cons.1 ho
    have hassoc : docs ++ d :: ds = docs ++ [d] ++ ds := by simp
    obtain ⟨hnodup, hunused⟩ := hfresh
    rw [hassoc] at hunused
    rw [identified]
    cases hid : d.field? "_id" with
    | some v =>
      rw [madeUpFor, hid] at hnodup hunused
      rw [ensureId_given supply hid]
      cases i with
      | zero => rw [repeats_zero, repeats_zero]
      | succ i =>
        rw [repeats_succ, repeats_succ]
        exact repeats_identified ho ⟨hnodup, hunused⟩ i
    | none =>
      obtain ⟨hmade, hsupply⟩ := ensureId_missing supply hd hid
      rw [madeUpFor, hid] at hnodup hunused
      obtain ⟨hfirst, hnodup⟩ := List.nodup_cons.1 hnodup
      obtain ⟨hnew, hunused⟩ := List.forall_mem_cons.1 hunused
      simp only [idsOf_append, idsOf_missing hid, List.append_nil, List.mem_append, not_or] at hnew hunused
      rw [hsupply]
      cases i with
      | zero =>
        rw [repeats_zero, repeats_zero, hmade, hid]
        refine iff_of_false ?_ (by simp)
        rintro ⟨v, hv, hmem⟩
        exact hnew.1 (Option.some.inj hv ▸ hmem)
      | succ i =>
        rw [repeats_succ, repeats_succ, repeats_identified ho ⟨hnodup, fun id hin => ?_⟩ i]
        · -- the new identifier is none of those that follow
          refine repeats_congr (fun v hv => ?_) i
          have hne : v ≠ supply.take.1.toValue := fun heq => hnew.2 (heq ▸ hv)
          simp [idsOf_append, idsOf_missing hid, idsOf_given hmade, hne]
        · have hne : id.toValue ≠ supply.take.1.toValue := fun heq => hfirst (ObjectId.toValue_injective heq ▸ hin)
          rw [idsOf_append, idsOf_append, idsOf_given hmade]
          simp [hne, hunused id hin]

/-! ## One insertion -/

theorem any_sameId (hid : d.field? "_id" = some v) (hv : v.IsIdentifier) (docs : List Value) :
    docs.any (sameId d) = true ↔ v ∈ idsOf docs := by
  rw [List.any_eq_true, idsOf, List.mem_filterMap]
  refine exists_congr fun e => and_congr_right fun _ => ?_
  rw [sameId, hid]
  cases he : e.field? "_id" with
  | none => simp
  | some w => exact hv.beq_iff.trans (by rw [Option.some_inj, eq_comm])

variable {ns : Namespace} {st : WriteState}

theorem idOf?_eq_some (hid : d.field? "_id" = some v) (hv : v.IsIdentifier) : ∃ id, idOf? d = some id := by
  obtain ⟨id, hof⟩ := hv.ofValue?_eq_some
  exact ⟨id, by rw [idOf?, hid, Option.bind_some, hof]⟩

theorem insert_new (hid : (ensureId st.supply d).1.field? "_id" = some v) (hv : v.IsIdentifier)
    (hnew : v ∉ idsOf st.docs) : ∃ id, idOf? (ensureId st.supply d).1 = some id ∧
      insert ns d st = ({ docs := st.docs ++ [(ensureId st.supply d).1], supply := (ensureId st.supply d).2
                          result := st.result.plus { inserted := 1, insertedIds := [id] } }, none) := by
  obtain ⟨id, hidOf⟩ := idOf?_eq_some hid hv
  have hany : st.docs.any (sameId (ensureId st.supply d).1) = false := by
    rw [Bool.eq_false_iff]
    exact fun hany => hnew ((any_sameId hid hv st.docs).1 hany)
  exact ⟨id, hidOf, by simp [insert, hidOf, hany, WriteResult.plus]⟩

theorem insert_repeated (hid : (ensureId st.supply d).1.field? "_id" = some v) (hv : v.IsIdentifier)
    (hthere : v ∈ idsOf st.docs) : ∃ id, idOf? (ensureId st.supply d).1 = some id ∧
      insert ns d st = ({ st with supply := (ensureId st.supply d).2 }, some (duplicateKey ns id)) := by
  obtain ⟨id, hidOf⟩ := idOf?_eq_some hid hv
  exact ⟨id, hidOf, by simp [insert, hidOf, (any_sameId hid hv st.docs).2 hthere]⟩

/-! ## Many insertions -/

theorem all_inserts_new : ∀ {ds : List Value} {st : WriteState}, (∀ d ∈ ds, Insertable d) →
    (∀ i, ¬ Repeats st.docs (identified st.supply ds) i) → ∃ supply ids,
      all ns (ds.map .insert) st = ({ docs := st.docs ++ identified st.supply ds, supply := supply
                                      result := st.result.plus { inserted := ds.length, insertedIds := ids } }, none) ∧
      ids.map some = (identified st.supply ds).map idOf?
  | [], st, _, _ => ⟨st.supply, [], by simp [all, identified, WriteResult.plus], rfl⟩
  | d :: ds, st, hds, hnew => by
    obtain ⟨hd, hds⟩ := List.forall_mem_cons.1 hds
    obtain ⟨v, hid, hv⟩ := hd.ensureId st.supply
    obtain ⟨id, hidOf, hone⟩ := @insert_new d v ns st hid hv fun hthere => hnew 0 (repeats_zero.2 ⟨v, hid, hthere⟩)
    obtain ⟨supply, ids, hall, hids⟩ := @all_inserts_new ds
      { docs := st.docs ++ [(ensureId st.supply d).1], supply := (ensureId st.supply d).2
        result := st.result.plus { inserted := 1, insertedIds := [id] } } hds
      fun i hi => hnew (i + 1) ((repeats_succ i).2 hi)
    refine ⟨supply, id :: ids, ?_, by rw [List.map_cons, hids, identified, List.map_cons, hidOf]⟩
    have hresult : (st.result.plus { inserted := 1, insertedIds := [id] }).plus
        { inserted := ds.length, insertedIds := ids } =
        st.result.plus { inserted := (d :: ds).length, insertedIds := id :: ids } := by
      simp [WriteResult.plus, Nat.add_assoc, Nat.add_comm 1]
    rw [List.map_cons, all, one, hone]
    simp only [hall, hresult, identified, List.append_assoc, List.singleton_append]

theorem all_inserts_repeated : ∀ {ds : List Value} {k : Nat} {st : WriteState}, (∀ d ∈ ds, Insertable d) →
    Repeats st.docs (identified st.supply ds) k → (∀ j < k, ¬ Repeats st.docs (identified st.supply ds) j) →
    ∃ st' id, all ns (ds.map .insert) st = (st', some (duplicateKey ns id)) ∧
      st'.docs = st.docs ++ (identified st.supply ds).take k ∧ (identified st.supply ds)[k]?.bind idOf? = some id
  | [], _, _, _, hk, _ => by
    obtain ⟨v, hv, -⟩ := hk
    cases hv
  | d :: ds, k, st, hds, hk, hfirst => by
    obtain ⟨hd, hds⟩ := List.forall_mem_cons.1 hds
    obtain ⟨v, hid, hv⟩ := hd.ensureId st.supply
    cases k with
    | zero =>
      obtain ⟨w, hw, hthere⟩ := repeats_zero.1 hk
      obtain rfl : v = w := Option.some.inj (hid.symm.trans hw)
      obtain ⟨id, hidOf, hone⟩ := @insert_repeated d v ns st hid hv hthere
      refine ⟨_, id, by rw [List.map_cons, all, one, hone], by simp, ?_⟩
      simpa [identified] using hidOf
    | succ k =>
      obtain ⟨id, hidOf, hone⟩ := @insert_new d v ns st hid hv fun hthere =>
        hfirst 0 (Nat.succ_pos k) (repeats_zero.2 ⟨v, hid, hthere⟩)
      obtain ⟨st', id', hall, hdocs, hid'⟩ := @all_inserts_repeated ds k
        { docs := st.docs ++ [(ensureId st.supply d).1], supply := (ensureId st.supply d).2
          result := st.result.plus { inserted := 1, insertedIds := [id] } } hds ((repeats_succ k).1 hk)
        fun j hj hj' => hfirst (j + 1) (Nat.succ_lt_succ hj) ((repeats_succ j).2 hj')
      refine ⟨st', id', ?_, by simp [hdocs, identified], by simpa [identified] using hid'⟩
      rw [List.map_cons, all, one, hone]
      exact hall

/-- **Queueing documents gives them the identifiers** that they would get when they are inserted. -/
theorem forDocuments_eq : ∀ {ds : List Value} (supply : IdSupply), (∀ d ∈ ds, Insertable d) →
    (WriteModel.forDocuments supply ds).1 = (identified supply ds).map .insert
  | [], _, _ => rfl
  | d :: ds, supply, hds => by
    obtain ⟨hd, hds⟩ := List.forall_mem_cons.1 hds
    have hone : (WriteModel.forDocument supply d).1 = .insert (ensureId supply d).1 ∧
        (WriteModel.forDocument supply d).2.2 = (ensureId supply d).2 := by
      cases d with
      | obj fs =>
        rw [WriteModel.forDocument, ensureId, Keyed.has]
        cases Keyed.get? fs "_id" <;> exact ⟨rfl, rfl⟩
      | _ => cases hd.isObj
    rw [WriteModel.forDocuments, identified, List.map_cons, ← hone.1, ← hone.2, ← forDocuments_eq _ hds]

end

end Write

namespace Store

open Write (Insertable FreshFor Repeats identified)

/-- How a list of documents becomes a bulk of insertions, and the supply that is there when it is written. -/
inductive Queued (supply : IdSupply) (ds : List Value) : BulkWrite → IdSupply → Prop
  /-- documents get their identifiers when they are inserted -/
  | bare : Queued supply ds (ds.map .insert) supply
  /-- documents get their identifiers when they are queued -/
  | prepared (later : IdSupply) : Queued supply ds (WriteModel.forDocuments supply ds).1 later

/-- **A bulk of insertions stores the documents in front of the first that repeats an identifier.**  There it fails; if
there is none, all documents are stored and their identifiers are handed out in order. -/
theorem inserts_store_prefix (s : Store) {supply later : IdSupply} (ns : Namespace) {ds : List Value} {b : BulkWrite}
    (hds : ∀ d ∈ ds, Insertable d) (hfresh : FreshFor supply (s.documents ns) ds) (hb : Queued supply ds b later) :
    ((∀ i, ¬ Repeats (s.documents ns) ds i) → ∃ supply' ids,
      s.write later ns b = (s.setDocuments ns (s.documents ns ++ identified supply ds), supply', .ok
        { inserted := ds.length, insertedIds := ids }) ∧
      ids.map some = (identified supply ds).map Write.idOf?) ∧
    ∀ k, Repeats (s.documents ns) ds k → (∀ j < k, ¬ Repeats (s.documents ns) ds j) → ∃ supply' id,
      s.write later ns b = (s.setDocuments ns (s.documents ns ++ (identified supply ds).take k), supply', .error
        (.driver ⟨.bulkWrite, s!"E11000 duplicate key error collection: {ns.text} _id: {id.toPlain.text}"⟩)) ∧
      (identified supply ds)[k]?.bind Write.idOf? = some id := by
  have hrepeats := Write.repeats_identified (fun d hd => (hds d hd).isObj) hfresh
  -- however they are queued, the same documents are inserted
  obtain ⟨es, hes, hbulk, hsame, hlength⟩ : ∃ es, (∀ d ∈ es, Insertable d) ∧ b = es.map .insert ∧
      identified later es = identified supply ds ∧ es.length = ds.length := by
    cases hb with
    | bare => exact ⟨ds, hds, rfl, rfl, rfl⟩
    | prepared =>
      have hgiven := Write.given_identified hds supply
      refine ⟨identified supply ds, fun d hd => ?_, Write.forDocuments_eq supply hds,
        Write.identified_given (fun d hd => (hgiven d hd).imp fun _ h => h.1) later, Write.length_identified supply ds⟩
      obtain ⟨v, hid, hv⟩ := hgiven d hd
      refine ⟨?_, fun w hw => ?_⟩
      · cases d with
        | obj fs => rfl
        | _ => cases hid
      · rwa [← Option.some.inj (hid.symm.trans hw)]
  subst hbulk
  refine ⟨fun hnew => ?_, fun k hk hfirst => ?_⟩
  · obtain ⟨supply', ids, hall, hids⟩ := @Write.all_inserts_new ns es { docs := s.documents ns, supply := later } hes
      fun i hi => hnew i ((hrepeats i).1 (hsame ▸ hi))
    simp only [hsame] at hall hids
    refine ⟨supply', ids, ?_, hids⟩
    rw [write, hall]
    simp [WriteResult.plus, hlength]
  · obtain ⟨st, id, hall, hdocs, hid⟩ := @Write.all_inserts_repeated ns es k
      { docs := s.documents ns, supply := later } hes (hsame.symm ▸ (hrepeats k).2 hk)
      fun j hj hj' => hfirst j hj ((hrepeats j).1 (hsame ▸ hj'))
    simp only [hsame] at hdocs hid
    refine ⟨st.supply, id, ?_, hid⟩
    rw [write, hall, ← hdocs]
    rfl

def arrivals : List Value :=
  [.single "_id" (.int 1), .single "n" (.str "x"), .single "_id" (.str "s"), .single "_id" (.int 1),
    .single "_id" (.int 2)]

theorem insertable_arrivals : ∀ d ∈ arrivals, Insertable d := by
  have hid : ∀ {v : Value}, v.IsIdentifier → Insertable (.single "_id" v) := fun hv =>
    ⟨rfl, fun w hw => Option.some.inj hw ▸ hv⟩
  have hint : ∀ n : Int, -Int.pow 2 63 ≤ n → n < Int.pow 2 63 → Insertable (.single "_id" (.int n)) :=
    fun n low high => hid (.int low high)
  intro d hd
  simp only [arrivals, List.mem_cons, List.not_mem_nil, or_false] at hd
  rcases hd with rfl | rfl | rfl | rfl | rfl
  · exact hint 1 (by decide) (by decide)
  · exact ⟨rfl, fun w hw => by cases hw⟩
  · exact hid (.str "s")
  · exact hint 1 (by decide) (by decide)
  · exact hint 2 (by decide) (by decide)

def arrived : Store := [("app.t", [.single "_id" (.int 7)])]

theorem inserts_store_prefix_arrivals :
    (∀ d ∈ arrivals, Insertable d) ∧
    FreshFor ⟨ObjectId.stamped 0, 0⟩ (arrived.documents ⟨"app", "t"⟩) arrivals ∧
    Queued ⟨ObjectId.stamped 0, 0⟩ arrivals (arrivals.map .insert) ⟨ObjectId.stamped 0, 0⟩ ∧
    ∃ supply', arrived.write ⟨ObjectId.stamped 0, 0⟩ ⟨"app", "t"⟩ (arrivals.map .insert) =
      (arrived.setDocuments ⟨"app", "t"⟩ [.single "_id" (.int 7), .single "_id" (.int 1),
          .obj [("n", .str "x"), ("_id", (ObjectId.stamped 0 0).toValue)], .single "_id" (.str "s")], supply', .error
        (.driver ⟨.bulkWrite, "E11000 duplicate key error collection: app.t _id: 1"⟩)) := by
  have hfresh : FreshFor ⟨ObjectId.stamped 0, 0⟩ (arrived.documents ⟨"app", "t"⟩) arrivals := by
    have hids : Write.idsOf (arrived.documents ⟨"app", "t"⟩ ++ arrivals) =
        [.int 7, .int 1, .str "s", .int 1, .int 2] := rfl
    refine ⟨by simp [Write.madeUpFor, arrivals, Value.single, Value.field?, Value.fields?, Keyed.get?], fun id _ => ?_⟩
    rw [hids]
    simp [ObjectId.toValue]
  obtain ⟨-, hprefix⟩ := inserts_store_prefix arrived ⟨"app", "t"⟩ insertable_arrivals hfresh .bare
  have hk : Repeats (arrived.documents ⟨"app", "t"⟩) arrivals 3 := ⟨.int 1, rfl, .tail _ (.head _)⟩
  have hfirst : ∀ j < 3, ¬ Repeats (arrived.documents ⟨"app", "t"⟩) arrivals j := by
    rintro j hj ⟨v, hv, hmem⟩
    obtain rfl | rfl | rfl : j = 0 ∨ j = 1 ∨ j = 2 := by omega
    · cases hv
      have hids : Value.int 1 ∈ [Value.int 7] := hmem
      simp at hids
    · cases hv
    · cases hv
      have hids : Value.str "s" ∈ [Value.int 7, Value.int 1] := hmem
      simp at hids
  obtain ⟨supply', id, hwrite, hid⟩ := hprefix 3 hk hfirst
  obtain rfl : DocumentId.int 1 = id := Option.some.inj hid
  exact ⟨insertable_arrivals, hfresh, .bare, supply', hwrite⟩

end Store

end DocQuery
