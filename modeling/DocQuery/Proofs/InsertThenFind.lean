import DocQuery.Proofs.Comparators
import DocQuery.Proofs.NativeId
import DocQuery.Proofs.ReadPaths
import DocQuery.Request.Filters

/-!
# What is inserted is found by its identifier

An identifier is made up as bytes, stored in an object, handed out as text, and turned back when a filter names it
(`KeyRule.compileFilter_id`).  An insertion puts one document behind the others (`Session.insert_on`), and it is found
again by the text that the insertion gave, and alone (`Query.insert_then_find`).
-/
namespace DocQuery

/-! ## The filter for an identifier -/

namespace KeyRule

variable {r : KeyRule} {id : ObjectId}

def idCondition (id : ObjectId) : Where (Condition Scope) := [(.and, [(some "id", .plain (.eq (.str id.text)))])]

def idFields (id : ObjectId) : Fields := [("$and", .arr [.single "_id" id.toValue])]

def idFilter (id : ObjectId) : Filter := [.junction .and [[.field "_id" [.eq id.toValue]]]]

/-- **The text of an identifier is compiled to the identifier.** -/
theorem compileFilter_id (hid : r.convertId = true) (hk : r.kind = .native) {q : Request}
    (hq : q.filter = idCondition id) : r.compileFilter q = .ok (idFields id) := by
  have hname : r.storedName "id" = "_id" := if_pos ⟨hid, rfl⟩
  have hop : Compiled.ofOperator r "_id" "=" (.str id.text) = .ok (.equals id.toValue) := by
    rw [← storedValue_text hk]
    rfl
  have hitem : r.item "id" (.eq (.str id.text)) = .ok (.single "_id" id.toValue) := by
    simp only [item, Comparison.eq, hname, hop]
    rfl
  have hcontribution : r.plainContribution .and (some "id") (.eq (.str id.text)) =
      .ok [("$and", .single "_id" id.toValue)] := by
    rw [plainContribution]
    rw [show Text.hasChar '|' "id" = false from rfl, show Text.hasChar '&' "id" = false from rfl]
    simp only [Bool.false_eq_true, if_false, items, hitem]
    rfl
  rw [compileFilter, hq, idCondition]
  simp only [List.flatMap_cons, List.flatMap_nil, List.map_cons, List.map_nil, List.append_nil, contribution,
    hcontribution]
  rfl

theorem ofValue_idFields (id : ObjectId) : Filter.ofValue (.obj (idFields id)) = .ok (idFilter id) := by
  have hplain : id.toValue.operators? = none := by
    have h := Comparator.operators?_storedValue ⟨true, .native⟩ "_id" (v := .str id.text) rfl
    rwa [storedValue_text rfl] at h
  have htest : Test.ofValue id.toValue = .ok [.eq id.toValue] := Comparator.test_ofValue_plain hplain
  have hbranch : Filter.ofValue (.single "_id" id.toValue) = .ok [.field "_id" [.eq id.toValue]] :=
    Comparator.ofValue_field (by decide) htest
  have hjunction : Filter.readField "$and" (.arr [.single "_id" id.toValue]) =
      (Filter.ofBranches [.single "_id" id.toValue]).map (.junction .and) := Filter.readField_key .and _
  rw [Filter.ofValue_obj, idFields, Filter.ofFields_cons, hjunction, Filter.ofBranches_cons, hbranch]
  rfl

theorem holds_idFilter (id : ObjectId) (doc : Value) :
    (idFilter id).holds doc = Value.meetsMissing (doc.field? "_id") id.toValue := by
  have hpath : doc.path? "_id" = doc.field? "_id" := by
    cases doc with
    | obj fs =>
      show (Keyed.get? fs "_id").bind (Value.at? · []) = Keyed.get? fs "_id"
      cases Keyed.get? fs "_id" <;> rfl
    | _ => rfl
  have hbranch : Filter.allHold doc [.field "_id" [.eq id.toValue]] =
      Value.meetsMissing (doc.field? "_id") id.toValue := by
    rw [Filter.allHold, Filter.allHold, Bool.and_true, Filter.clauseHolds, Test.allHold, Test.allHold, Bool.and_true,
      Test.holds, hpath]
  rw [idFilter, Filter.holds, Filter.allHold, Filter.allHold, Bool.and_true, Filter.clauseHolds, Filter.countHolding,
    Filter.countHolding, hbranch]
  cases Value.meetsMissing (doc.field? "_id") id.toValue <;> rfl

/-- **An identifier that is nowhere in the `_id` of older documents finds the new one alone.** -/
theorem filter_idFilter {docs : List Value} {doc : Value} (hfresh : id.Fresh docs)
    (hnew : doc.field? "_id" = some id.toValue) : (docs ++ [doc]).filter (idFilter id).holds = [doc] := by
  have hold : docs.filter (idFilter id).holds = [] := by
    rw [List.filter_eq_nil_iff]
    intro d hd hholds
    rw [holds_idFilter] at hholds
    cases hv : d.field? "_id" with
    | none =>
      rw [hv] at hholds
      cases hholds
    | some v =>
      rw [hv] at hholds
      exact hfresh d hd v hv (ObjectId.occurs_of_meets hholds)
  have hholds : (idFilter id).holds doc = true := by
    rw [holds_idFilter, hnew]
    exact ObjectId.meets_self id
  rw [List.filter_append, hold, List.nil_append, List.filter_singleton, hholds, cond_true]

end KeyRule

namespace Request

def forId (table : String) (id : ObjectId) : Request := { table := some table, filter := KeyRule.idCondition id }

variable (table : String) (id : ObjectId)

theorem isNullTest_text : FilterCall.isNullTest id.text = false := by
  have hlength : (Text.lower id.text).toList.length = 24 := by
    rw [Text.lower, String.toList_ofList, List.length_map, ObjectId.length_text]
  have hne : ∀ test : String, test.toList.length ≠ 24 → (Text.lower id.text == test) = false := fun test h =>
    beq_false_of_ne fun heq => h (heq ▸ hlength)
  simp only [FilterCall.isNullTest, List.contains_cons, List.contains_nil, hne "null" (by decide),
    hne "notnull" (by decide), hne "not null" (by decide), Bool.or_self]

/-- **A filter by the text of an identifier** is for that identifier: no such text is the name of a null test. -/
theorem filterEq_id : ({ table := some table } : Request).filterEq "id" (.str id.text) = forId table id := by
  have hentries : FilterCall.nameEntries "id" (some (.str id.text)) none = [(some "id", .eq (.str id.text))] := by
    simp only [FilterCall.nameEntries, Value.str?, Option.filter, isNullTest_text, Bool.false_eq_true, if_false]
  unfold filterEq addFilter Where.add
  rw [FilterCall.entries, hentries]
  rfl

/-- **A filter by the primary key** is for the same identifier: no such text is a list. -/
theorem filterByKey_id : ({ table := some table } : Request).filterByKey "id" (.str id.text) = forId table id := by
  have hcomma : Text.hasChar ',' id.text = false :=
    Bool.eq_false_iff.2 fun h => absurd (ObjectId.mem_text (List.contains_iff_mem.1 h)) (by decide)
  have hcomparison : keyComparison "id" (.str id.text) = .eq (.str id.text) := by
    rw [keyComparison, hcomma]
    rfl
  rw [filterByKey, hcomparison]
  rfl

end Request

/-! ## The document and its row -/

theorem Request.mem_mergeData {fs : Fields} {e : String × Assignment}
    (h : e ∈ (({} : Request).mergeData fs).data) : ∃ f ∈ fs, e.1 = f.1 := by
  rcases Keyed.mem_setAll h with h | h
  · cases h
  · obtain ⟨f, hf, rfl⟩ := List.mem_map.1 h
    exact ⟨f, hf, rfl⟩

namespace KeyRule

variable {r : KeyRule}

theorem get?_document {data : Keyed String Assignment} {key : String} (h : ∀ e ∈ data, r.storedName e.1 ≠ key) :
    Keyed.get? (r.document data) key = none := by
  refine Keyed.get?_eq_none.2 fun e he => ?_
  rcases Keyed.mem_setAll he with he | he
  · cases he
  · obtain ⟨d, hd, rfl⟩ := List.mem_map.1 he
    exact h d hd

theorem storedName_ne {field : String} (h : Text.trim field ≠ "_id" ∧ Text.trim field ≠ "id") :
    r.storedName field ≠ "_id" ∧ r.storedName field ≠ "id" := by
  have hfield : field ≠ "id" := fun heq => h.2 (by rw [heq]; rfl)
  rw [storedName, if_neg fun hid => hfield hid.2]
  exact h

end KeyRule

namespace ObjectId

def document (id : ObjectId) (fs : Fields) : Value := .obj (fs ++ [("_id", id.toValue)])

/-- The row of some fields: the text of the identifier is behind them. -/
def row (id : ObjectId) (fs : Fields) : Value := .obj (fs ++ [("id", .str id.text)])

variable {fs : Fields}

theorem field?_document (id : ObjectId) (h : Keyed.get? fs "_id" = none) :
    (id.document fs).field? "_id" = some id.toValue := by
  show Keyed.get? (fs ++ [("_id", id.toValue)]) "_id" = some id.toValue
  rw [Keyed.get?_append, h, Option.none_or, Keyed.get?_cons, if_pos rfl]

theorem field?_row (id : ObjectId) {key : String} (hkey : key ≠ "id") :
    (id.row fs).field? key = Keyed.get? fs key := by
  show Keyed.get? (fs ++ [("id", .str id.text)]) key = Keyed.get? fs key
  rw [Keyed.get?_append, Keyed.get?_cons, if_neg hkey.symm, Keyed.get?_nil, Option.or_none]

theorem field?_id_row (id : ObjectId) (h : Keyed.get? fs "id" = none) :
    (id.row fs).field? "id" = some (.str id.text) := by
  show Keyed.get? (fs ++ [("id", .str id.text)]) "id" = some (.str id.text)
  rw [Keyed.get?_append, h, Option.none_or, Keyed.get?_cons, if_pos rfl]

/-- **The native identifier of a document becomes the text in its row.** -/
theorem exposeId_document (id : ObjectId) (hstored : Keyed.get? fs "_id" = none) (hid : Keyed.get? fs "id" = none) :
    (id.document fs).exposeId = id.row fs := by
  have hget : Keyed.get? (fs ++ [("_id", id.toValue)]) "_id" = some id.toValue := id.field?_document hstored
  rw [document, Value.exposeId, hget, Option.bind_some, ofValue?_toValue]
  show Value.obj (Keyed.set (Keyed.swapErase (fs ++ [("_id", id.toValue)]) "_id") "id" (.str id.text)) = _
  rw [Keyed.swapErase_last hstored, Keyed.set_of_get?_none hid]
  rfl

end ObjectId

namespace Store

/-- **A document whose identifier is nowhere in a collection goes to its end.** -/
theorem write_new {st : Store} {ns : Namespace} {doc : Value} {id : ObjectId}
    (hid : doc.field? "_id" = some id.toValue) (hfresh : id.Fresh (st.documents ns)) (supply : IdSupply) :
    st.write supply ns [.insert doc] = (st.setDocuments ns (st.documents ns ++ [doc]), supply,
      .ok { inserted := 1, insertedIds := [.native id] }) := by
  have hidOf : Write.idOf? doc = some (.native id) := by
    rw [Write.idOf?, hid, Option.bind_some]
    unfold DocumentId.ofValue?
    rw [ObjectId.ofValue?_toValue]
  have hany : (st.documents ns).any (Write.sameId doc) = false := by
    rw [List.any_eq_false]
    intro d hd hsame
    rw [Write.sameId, hid] at hsame
    cases hv : d.field? "_id" with
    | none =>
      rw [hv] at hsame
      cases hsame
    | some v =>
      rw [hv] at hsame
      refine hfresh d hd v hv ?_
      rw [ObjectId.eq_toValue_of_toValue_beq hsame]
      exact .here
  unfold Store.write
  simp only [Write.all, Write.one, Write.insert, Write.ensureId_given supply hid, hidOf, hany, Bool.false_eq_true,
    if_false]
  rfl

end Store

/-! ## The session -/

namespace Session

/-- Callers know the native `_id` as `id`, on a single server that can be reached, and nobody listens. -/
structure ConvertsIds (s : Session Memory) : Prop where
  driver : s.pool.driver = Memory.driver
  topology : s.settings.topology = .standalone
  reachable : s.pool.CanLink .standalone
  listeners : s.listeners = []
  convertId : s.settings.convertId = true
  pk : s.settings.pk = "_id"
  keyKind : s.settings.keyKind = .native
  naming : s.naming = .ofSettings s.settings

def collectionOf (s : Session Memory) (table : String) : Namespace := .resolve s.settings.database table

section

variable {s t : Session Memory} {q : Request}

theorem ConvertsIds.hasListener (hs : ConvertsIds s) (hook : Hook) : s.hasListener hook = false := by
  rw [Session.hasListener, hs.listeners]
  rfl

theorem ConvertsIds.standalone (hs : ConvertsIds s) : Standalone s :=
  ⟨hs.driver, hs.hasListener _, hs.hasListener _, hs.topology⟩

theorem ConvertsIds.primaryKey (hs : ConvertsIds s) (table : String) : s.primaryKey table = "id" := by
  rw [Session.primaryKey, hs.naming]
  exact if_pos ⟨hs.convertId, hs.pk⟩

theorem Carries.convertsIds (h : Carries s t) (hs : ConvertsIds s) : ConvertsIds t := by
  have hsettings : t.settings = s.settings := h.pool.settings
  exact
    { driver := h.pool.driver.trans hs.driver
      topology := by rw [hsettings, hs.topology]
      reachable := h.pool.canLink hs.reachable
      listeners := h.listeners.trans hs.listeners
      convertId := by rw [hsettings, hs.convertId]
      pk := by rw [hsettings, hs.pk]
      keyKind := by rw [hsettings, hs.keyKind]
      naming := by rw [hsettings, h.naming, hs.naming] }

theorem ConvertsIds.stored (hs : ConvertsIds s) (ns : Namespace) (docs : List Value) :
    ConvertsIds (Walk.stored s ns docs) :=
  { driver := hs.driver, topology := hs.topology, reachable := hs.reachable, listeners := hs.listeners
    convertId := hs.convertId, pk := hs.pk, keyKind := hs.keyKind, naming := hs.naming }

theorem Carries.stored (h : Carries s t) (ns : Namespace) (docs : List Value) :
    Carries (Walk.stored s ns docs) (Walk.stored t ns docs) where
  pool :=
    { driver := h.pool.driver
      settings := h.pool.settings
      store := by rw [Walk.stored, Walk.stored, h.pool.store]
      refused := h.pool.refused
      links := h.pool.links }
  naming := h.naming
  listeners := h.listeners

/-- **A bulk write that the store carries out** leaves its documents to whoever reads next. -/
theorem submit_on (hs : Standalone s) (hcan : s.pool.CanLink .standalone) (htable : q.tableName ≠ "") {b : BulkWrite}
    {docs : List Value} {r : WriteResult} (hwrite : ∀ supply,
      s.pool.state.store.write supply (s.collectionOf q.tableName) b =
        (s.pool.state.store.setDocuments (s.collectionOf q.tableName) docs, supply, .ok r)) :
    ∃ t, Carries (Walk.stored s (s.collectionOf q.tableName) docs) t ∧ (submit q b).on s = (.ok r, t) := by
  obtain ⟨t, ht, ⟨-, l, hl⟩ | ⟨hno, -⟩⟩ := endpoint_of_role hs.driver .write
  · rw [select_standalone hs.topology] at hl
    have hcollection : t.collection q .standalone = .ok (s.collectionOf q.tableName) := by
      rw [ht.collection, collection, if_neg htable]
      rfl
    have hdrive : (drive (t.pool.driver.write l (s.collectionOf q.tableName) b q.writeConcern)).on t =
        (.ok r, Walk.stored t (s.collectionOf q.tableName) docs) := by
      rw [ht.pool.driver, hs.driver, drive, pooled, Run.on_within, Pool.drive, Run.on_within]
      simp only [Memory.driver, Run.on_of, Memory.write, ht.pool.store, hwrite]
      rw [Walk.stored, ht.pool.store]
    unfold submit
    rw [Run.on_bind_ok hl]
    simp only
    rw [Run.on_bind_ok (Run.on_get _), hcollection, Run.on_bind_ok (Run.on_lift _ _), Run.on_bind_ok hdrive, record,
      Run.on_bind_ok (Run.on_modify _ _), Run.on_bind_ok (Run.on_modify _ _)]
    refine ⟨_, ?_, rfl⟩
    exact (ht.stored _ docs).trans ⟨Pool.Carries.refl _, rfl, rfl⟩
  · rw [select_standalone hs.topology] at hno
    exact absurd hcan hno

/-- **An insertion puts the document with the next identifier behind the others**, and gives its text. -/
theorem insert_on (hs : ConvertsIds s) (htable : q.tableName ≠ "") (hdata : q.data ≠ []) {id : ObjectId}
    (hnext : s.supply.draw s.supply.next = id) (hstored : Keyed.get? (s.keyRule.document q.data) "_id" = none)
    (hfresh : id.Fresh (s.pool.state.store.documents (s.collectionOf q.tableName))) :
    ∃ t, Carries (Walk.stored s (s.collectionOf q.tableName) (s.pool.state.store.documents
        (s.collectionOf q.tableName) ++ [id.document (s.keyRule.document q.data)])) t ∧
      (insert q).on s = (.ok (1, some (.str id.text), t.withKey q (.str id.text)), t) := by
  have hinsertion : s.keyRule.insertion q s.supply = ([.insert (id.document (s.keyRule.document q.data))],
      some (.native id), { s.supply with next := s.supply.next + 1 }) := by
    rw [KeyRule.insertion, WriteModel.forDocument, hstored]
    simp only [IdSupply.take, hnext, Keyed.set_of_get?_none hstored]
    rfl
  -- taking an identifier is nothing to the store
  have hs' : ConvertsIds { s with supply := { s.supply with next := s.supply.next + 1 } } :=
    Carries.convertsIds (s := s) ⟨Pool.Carries.refl _, rfl, rfl⟩ hs
  obtain ⟨t, ht, hsubmit⟩ := submit_on hs'.standalone hs.reachable htable
    (Store.write_new (id.field?_document hstored) hfresh)
  refine ⟨t, ⟨ht.pool, ht.naming, ht.listeners⟩, ?_⟩
  have hempty : q.data.isEmpty = false := by rwa [List.isEmpty_eq_false_iff]
  unfold insert
  simp only [hempty, Bool.false_eq_true, if_false]
  refine (Run.on_bind_ok (a := ([.insert (id.document (s.keyRule.document q.data))], some (.native id)))
    (t := { s with supply := { s.supply with next := s.supply.next + 1 } }) ?_).trans ?_
  · rw [supplied, Run.on_of, hinsertion]
  simp only
  rw [Run.on_bind_ok hsubmit]
  simp only [Nat.one_ne_zero, if_false]
  have htrigger := Read.trigger_on ((ht.convertsIds (hs'.stored _ _)).hasListener .afterInsert)
    (t.withKey q (.str id.text)) (some (.str id.text))
  rw [Run.on_bind_ok (Run.on_get _)]
  simp only [Option.map_some, DocumentId.toPlain]
  rw [Run.on_bind_ok htrigger]
  rfl

/-- **The request for an identifier gives the row of its document, and that alone.** -/
theorem reads_forId (hs : ConvertsIds s) {table : String} (htable : table ≠ "") {docs : List Value} {fs : Fields}
    {id : ObjectId} (hdocs : s.pool.state.store.documents (s.collectionOf table) = docs ++ [id.document fs])
    (hfresh : id.Fresh docs) (hstored : Keyed.get? fs "_id" = none) (hid : Keyed.get? fs "id" = none) :
    ((select (s.finalize (.forId table id))).on s).1 = .ok [id.row fs] ∧
      ((find (s.finalize (.forId table id))).on s).1 = .ok (some (id.row fs)) := by
  have hshape : s.keyRule.shape (s.finalize (.forId table id)) (id.document fs) = id.row fs := by
    rw [KeyRule.shape, show s.keyRule.convertId = true from hs.convertId]
    exact id.exposeId_document hstored hid
  have hfind : ∀ one, s.keyRule.find (s.finalize (.forId table id)) one =
      .ok ⟨.obj (KeyRule.idFields id), s.keyRule.findOptions (s.finalize (.forId table id)) one⟩ := fun one => by
    rw [KeyRule.find, KeyRule.compileFilter_id hs.convertId hs.keyKind rfl]
    rfl
  have hrows : ∀ one, s.fetched (s.finalize (.forId table id))
      (.find ⟨.obj (KeyRule.idFields id), s.keyRule.findOptions (s.finalize (.forId table id)) one⟩) =
        .ok [id.row fs] := fun one => by
    have hcollection : s.pool.state.store.documents (.resolve s.settings.database
        (s.finalize (.forId table id)).tableName) = docs ++ [id.document fs] := hdocs
    rw [hs.standalone.fetched_find (q := s.finalize (.forId table id)) hs.reachable htable, KeyRule.ofValue_idFields]
    simp only [Except.map]
    rw [exposed_rowsOf, hcollection, KeyRule.filter_idFilter hfresh (id.field?_document hstored)]
    cases one
    · exact congrArg (fun row => Except.ok [row]) hshape
    · exact congrArg (fun row => Except.ok [row]) hshape
  rw [select_on_eq hs.standalone.selects rfl, find_on_eq hs.standalone.finds rfl, hfind, hfind]
  simp only [Except.bind]
  rw [hrows, hrows]
  exact ⟨rfl, rfl⟩

end

end Session

namespace Query

open Session (ConvertsIds)

def newFields (s : Session Memory) (data : Fields) : Fields := s.keyRule.document (({} : Request).mergeData data).data

/-- **What is inserted is found by its identifier.**  The insertion gives the text of the next identifier, and a select
by that text gives one row: it has the stored fields of the data, the text under `id`, and no `_id`.  A find by the
primary key gives the same row. -/
theorem insert_then_find {s : Session Memory} (hs : ConvertsIds s) {table : String} (htable : table ≠ "")
    {data : Fields} (hdata : data ≠ []) (hkeys : ∀ e ∈ data, Text.trim e.1 ≠ "_id" ∧ Text.trim e.1 ≠ "id")
    {id : ObjectId} (hnext : s.supply.draw s.supply.next = id)
    (hfresh : id.Fresh (s.pool.state.store.documents (s.collectionOf table))) :
    ∃ row w, (insert data).on ⟨s, { table := some table }⟩ = (.ok (1, some (.str id.text)), w) ∧
      id.text.toList.length = 24 ∧ (∀ c ∈ id.text.toList, c ∈ "0123456789abcdef".toList) ∧
      row = Value.obj (newFields s data ++ [("id", .str id.text)]) ∧
      row.field? "_id" = none ∧ row.field? "id" = some (.str id.text) ∧
      (∀ key, key ≠ "id" → row.field? key = Keyed.get? (newFields s data) key) ∧
      ∀ t, Session.Carries w.session t →
        (select.on ⟨t, ({ table := some table } : Request).filterEq "id" (.str id.text)⟩).1 = .ok [row] ∧
        (find.on ⟨t, byKey ⟨t, { table := some table }⟩ (.str id.text)⟩).1 = .ok (some row) := by
  have hnames : ∀ e ∈ (({} : Request).mergeData data).data,
      s.keyRule.storedName e.1 ≠ "_id" ∧ s.keyRule.storedName e.1 ≠ "id" := fun e he => by
    obtain ⟨f, hf, hname⟩ := Request.mem_mergeData he
    rw [hname]
    exact KeyRule.storedName_ne (hkeys f hf)
  have hstored : Keyed.get? (newFields s data) "_id" = none := KeyRule.get?_document fun e he => (hnames e he).1
  have hid : Keyed.get? (newFields s data) "id" = none := KeyRule.get?_document fun e he => (hnames e he).2
  have hne : (({} : Request).mergeData data).data ≠ [] := Keyed.ofList_ne_nil (mt List.map_eq_nil_iff.1 hdata)
  obtain ⟨t, ht, hinsert⟩ := Session.insert_on (q := s.finalize (({ table := some table } : Request).mergeData data)) hs
    htable hne hnext hstored hfresh
  have hon : (insert data).on ⟨s, { table := some table }⟩ = (.ok (1, some (.str id.text)),
      ⟨t, t.withKey (s.finalize (({ table := some table } : Request).mergeData data)) (.str id.text)⟩) := by
    unfold insert mergeData
    rw [Run.on_bind_ok (Run.on_modify _ _), Run.on_bind, finalized_on, hinsert]
    rfl
  have hrow : (id.row (newFields s data)).field? "_id" = none := by rw [id.field?_row (by decide), hstored]
  refine ⟨id.row (newFields s data), _, hon, id.length_text, fun c => ObjectId.mem_text, rfl, hrow,
    id.field?_id_row hid, fun key => id.field?_row, fun u hu => ?_⟩
  -- whatever was read in between, the documents are those that the insertion left
  have hus := (ht.trans hu).convertsIds (hs.stored _ _)
  have hdocs : u.pool.state.store.documents (u.collectionOf table) =
      s.pool.state.store.documents (s.collectionOf table) ++ [id.document (newFields s data)] := by
    have hsettings : u.settings = s.settings := (ht.trans hu).pool.settings
    rw [Session.collectionOf, hsettings, (ht.trans hu).pool.store]
    exact Walk.documents_stored s _ _
  have hkey : byKey ⟨u, { table := some table }⟩ (.str id.text) = .forId table id := by
    rw [byKey, Query.primaryKey, Session.primaryKeyFor, hus.primaryKey, Request.filterByKey_id]
  rw [Request.filterEq_id, hkey, select, find, finalized_on, finalized_on]
  exact Session.reads_forId hus htable hdocs hfresh hstored hid

def usersSession : Session Memory :=
  Walk.stored
    { pool :=
        { settings := { database := "app", convertId := true }
          driver := Memory.driver
          state := { supply := ⟨ObjectId.stamped 0, 0⟩ } }
      naming := .ofSettings { database := "app", convertId := true }
      supply := ⟨ObjectId.stamped 1, 0⟩ }
    ⟨"app", "users"⟩ [(ObjectId.stamped 0 0).document [("name", .str "b")]]

theorem convertsIds_usersSession : ConvertsIds usersSession :=
  { driver := rfl, topology := rfl, reachable := .inr ⟨rfl, by decide⟩, listeners := rfl, convertId := rfl, pk := rfl
    keyKind := rfl, naming := rfl }

theorem insert_then_find_users : ConvertsIds usersSession ∧ "users" ≠ "" ∧ [("name", Value.str "a")] ≠ [] ∧
    (∀ e ∈ [("name", Value.str "a")], Text.trim e.1 ≠ "_id" ∧ Text.trim e.1 ≠ "id") ∧
    usersSession.supply.draw usersSession.supply.next = ObjectId.stamped 1 0 ∧
    (ObjectId.stamped 1 0).Fresh (usersSession.pool.state.store.documents (usersSession.collectionOf "users")) ∧
    ∃ w, (insert [("name", .str "a")]).on ⟨usersSession, { table := some "users" }⟩ =
        (.ok (1, some (.str "000000010000000000000000")), w) ∧
      (select.on ⟨w.session, ({ table := some "users" } : Request).filterEq "id" (.str "000000010000000000000000")⟩).1 =
        .ok [.obj [("name", .str "a"), ("id", .str "000000010000000000000000")]] := by
  have hkeys : ∀ e ∈ [("name", Value.str "a")], Text.trim e.1 ≠ "_id" ∧ Text.trim e.1 ≠ "id" := by
    intro e he
    obtain rfl := List.mem_singleton.1 he
    decide
  have hfresh : (ObjectId.stamped 1 0).Fresh
      (usersSession.pool.state.store.documents (usersSession.collectionOf "users")) := by
    intro d hd v hv
    obtain rfl := List.mem_singleton.1 hd
    cases hv
    exact mt ObjectId.occurs_toValue_iff.1 (by decide)
  have htext : (ObjectId.stamped 1 0).text = "000000010000000000000000" := by decide
  obtain ⟨row, w, hinsert, -, -, rfl, -, -, -, hreads⟩ := @insert_then_find usersSession convertsIds_usersSession
    "users" (by decide) _ (List.cons_ne_nil _ _) hkeys (ObjectId.stamped 1 0) rfl hfresh
  rw [htext] at hinsert hreads
  exact ⟨convertsIds_usersSession, by decide, List.cons_ne_nil _ _, hkeys, rfl, hfresh, w, hinsert,
    (hreads w.session (Session.Carries.refl _)).1⟩

end Query

end DocQuery
