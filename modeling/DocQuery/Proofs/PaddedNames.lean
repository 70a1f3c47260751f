import DocQuery.Compile.Payload
import DocQuery.Proofs.SingleCondition
import DocQuery.Proofs.UpdateGroups

/-!
# The fields that payloads address

The conditions, the selection, the sort keys and the data of a request name fields, and its payloads address these
fields by their stored names, and no others (`KeyRule.itemFields_compileFilter`, `KeyRule.groupFields_change`).  Callers
who know `_id` as `id` never reach a stored field `id` by that name; but only the bare name is taken for the identifier,
and with blanks around it they do (`KeyRule.addresses_id_iff`).
-/
namespace DocQuery

/-! ## Field positions -/

def Value.fieldNames (v : Value) : List String := Keyed.keys v.fieldsOrEmpty

def itemFields (filter : Value) : List String :=
  filter.fieldsOrEmpty.flatMap fun e => (e.2.items?.getD []).flatMap Value.fieldNames

def groupFields (change : Value) : List String := change.fieldsOrEmpty.flatMap fun e => e.2.fieldNames

def WriteModel.addresses : WriteModel → List String
  | insert document => document.fieldNames
  | update filter change _ _ => itemFields filter ++ groupFields change
  | delete filter _ => itemFields filter

/-- The fields that the conditions of a request name, lists taken apart. -/
def Request.conditionNames (q : Request) : List String :=
  q.filter.entries.flatMap fun e => (e.2.1.map KeyRule.fieldsOf).getD []

namespace KeyRule

open Change (Grouped)

/-- Fields are the stored names of what names them. -/
def Stores (r : KeyRule) (names fields : List String) : Prop :=
  ∀ key, key ∈ fields ↔ ∃ name ∈ names, r.storedName name = key

theorem Stores.append {r : KeyRule} {names names' fields fields' : List String} (h : r.Stores names fields)
    (h' : r.Stores names' fields') : r.Stores (names ++ names') (fields ++ fields') := fun key => by
  simp only [List.mem_append, h key, h' key, or_and_right, exists_or]

/-! ## Conditions -/

def Compares (c : Comparison) : Prop := ∀ op v, c = .single op v → Text.lower (Text.trim op) ≠ "exp"

def IsComparison (e : Filed (Condition Scope)) : Prop := ∃ l field c, e = (l, field, .plain c) ∧ Compares c

section

variable {r : KeyRule}

theorem exp_of_document {stored op : String} {v d : Value} (h : Compiled.ofOperator r stored op v = .ok (.document d)) :
    Text.lower (Text.trim op) = "exp" := by
  unfold Compiled.ofOperator at h
  simp only at h
  generalize Text.lower (Text.trim op) = lowered at h ⊢
  split at h
  -- all others stand for a value or for operators, or for nothing
  all_goals first
    | (cases h; done)
    | (rw [map_eq_ok] at h
       obtain ⟨b, -, ⟨⟩⟩ := h)
    | (split at h <;> cases h)
    | rfl

theorem item_eq_ok {field : String} {c : Comparison} {item : Value} (h : r.item field c = .ok item)
    (hc : Compares c) : ∃ v, item = .obj [(r.storedName field, v)] := by
  cases c with
  | single op v =>
    obtain ⟨compiled, hcompiled, h⟩ := bind_eq_ok.1 h
    cases compiled with
    | equals w =>
      cases h
      exact ⟨w, rfl⟩
    | operators fs =>
      cases h
      exact ⟨.obj fs, rfl⟩
    | document d => exact absurd (exp_of_document hcompiled) (hc op v rfl)
  | many pairs =>
    obtain ⟨fs, -, rfl⟩ := map_eq_ok.1 h
    exact ⟨.obj fs, rfl⟩

def contributed (items : Contribution) : List String := items.flatMap fun i => i.2.fieldNames

theorem stores_items {key : String} {c : Comparison} (hc : Compares c) : ∀ {fields : List String}
    {items : Contribution}, r.items key c fields = .ok items → r.Stores fields (contributed items)
  | [], items, h => by
    cases h
    simp [Stores, contributed]
  | field :: fields, items, h => by
    obtain ⟨first, hfirst, h⟩ := bind_eq_ok.1 h
    obtain ⟨rest, hrest, h⟩ := bind_eq_ok.1 h
    cases h
    obtain ⟨v, rfl⟩ := item_eq_ok hfirst hc
    have hone : r.Stores [field] [r.storedName field] := fun key => by simp [eq_comm]
    exact hone.append (stores_items hc hrest)

theorem contributed_collected (items : Contribution) (key : String) :
    key ∈ itemFields (.obj (items.foldl push [])) ↔ key ∈ contributed items := by
  simp only [itemFields, contributed, Value.fieldsOrEmpty, Value.fields?, Option.getD_some, List.mem_flatMap]
  constructor
  · rintro ⟨e, he, v, hv, hkey⟩
    rw [((mem_collected items e).1 he).2] at hv
    exact ⟨_, mem_filed.1 hv, hkey⟩
  · rintro ⟨⟨k, v⟩, hi, hkey⟩
    have hv : v ∈ filed k items := mem_filed.2 hi
    exact ⟨(k, .arr (filed k items)), (mem_collected items _).2 ⟨List.ne_nil_of_mem hv, rfl⟩, v, hv, hkey⟩

theorem stores_contributes {scope : Scope} {e : Filed (Condition Scope)} (he : IsComparison e) {items : Contribution}
    (h : r.contributes scope e = .ok items) :
    r.Stores ((e.2.1.map fieldsOf).getD []) (contributed items) := by
  obtain ⟨l, field, c, rfl, hc⟩ := he
  have hplain : r.plainContribution l field c = .ok items := h
  cases field with
  | some field =>
    rw [plainContribution_some] at hplain
    exact stores_items hc hplain
  | none =>
    simp only [plainContribution] at hplain
    split at hplain
    · exact absurd (by decide) (hc "exp" _ rfl)
    · cases hplain

/-- **The items of a filter document are on the fields that the conditions name.** -/
theorem itemFields_compileFilter {q : Request} (hq : ∀ e ∈ q.filter.entries, IsComparison e) {fs : Fields}
    (h : r.compileFilter q = .ok fs) : r.Stores q.conditionNames (itemFields (.obj fs)) := by
  obtain ⟨hok, rfl⟩ := compileFilter_eq_ok.1 h
  intro key
  rw [contributed_collected, Request.conditionNames]
  revert key
  show r.Stores _ _
  generalize q.filter.entries = es at hq hok
  induction es with
  | nil => simp [Stores, contributed, itemsOf]
  | cons e es ih =>
    obtain ⟨hfirst, hrest⟩ := List.forall_mem_cons.1 hq
    obtain ⟨⟨items, hitems⟩, hrestOk⟩ := List.forall_mem_cons.1 hok
    rw [itemsOf_cons hitems, contributed, List.flatMap_append, List.flatMap_cons]
    exact (stores_contributes hfirst hitems).append (ih hrest hrestOk)

/-! ## Data and options -/

theorem stores_map {α : Type} (es : List (String × α)) (f : String × α → α) :
    r.Stores (es.map Prod.fst) ((es.map fun e => (r.storedName e.1, f e)).map Prod.fst) := fun key => by
  simp

theorem stores_ofList {α : Type} (es : List (String × α)) {β : Type} (f : String × α → β) :
    r.Stores (es.map Prod.fst) (Keyed.keys (Keyed.ofList (es.map fun e => (r.storedName e.1, f e)))) := fun key => by
  rw [Keyed.mem_keys_ofList]
  simp

/-- **A document has the fields that the data name.** -/
theorem stores_document (data : Keyed String Assignment) :
    r.Stores (Keyed.keys data) (Keyed.keys (r.document data)) :=
  stores_ofList data fun e => r.storedValue (r.storedName e.1) e.2.toValue

theorem mem_groupFields {change : Fields} (h : Grouped change) {key : String} :
    key ∈ groupFields (.obj change) ↔ ∃ op, filedAt change op key ≠ none := by
  simp only [groupFields, Value.fieldsOrEmpty, Value.fields?, Option.getD_some, List.mem_flatMap]
  constructor
  · rintro ⟨e, he, hkey⟩
    obtain ⟨group, hgroup⟩ := h.groups e he
    refine ⟨e.1, ?_⟩
    rw [filedAt, (Keyed.mem_iff_get? h.nodup).1 he, hgroup]
    rw [hgroup] at hkey
    exact Option.isSome_iff_ne_none.1 (Keyed.mem_keys.1 hkey)
  · rintro ⟨op, hop⟩
    obtain ⟨v, hv⟩ := Option.ne_none_iff_exists'.1 hop
    obtain ⟨group, hget, hfield⟩ := Option.bind_eq_some_iff.1 hv
    refine ⟨_, Keyed.mem_of_get? hget, ?_⟩
    rw [Value.field?_eq] at hfield
    exact Keyed.mem_keys.2 (by rw [hfield]; rfl)

/-- An entry of the data that is not handed on raw, neither as a whole group nor as an expression. -/
def IsAssigned (e : String × Assignment) : Prop :=
  (∀ v, e.2 = .plain v → Text.startsWith e.1 "$" = false) ∧ ∀ v, e.2 ≠ .operator "exp" v

theorem isEntry_of_assign {change change' : Fields} {e : String × Assignment} (he : IsAssigned e)
    (h : r.assign change e.1 e.2 = .ok change') : IsEntry e ∧ group? e = none := by
  obtain ⟨field, v | ⟨op, v⟩⟩ := e
  · have hfield : Text.startsWith field "$" = false := he.1 v rfl
    exact ⟨.plain v hfield, group?_plain hfield⟩
  · have hexp : op ≠ "exp" := fun heq => he.2 v (by rw [heq])
    rw [assign, if_neg hexp] at h
    split at h
    · rename_i hop
      exact ⟨.operator field v hop, rfl⟩
    · cases h

theorem assignAll_addresses : ∀ {data : List (String × Assignment)} {change change' : Fields}, Grouped change →
    (∀ e ∈ data, IsAssigned e) → r.assignAll data change = .ok change' → Grouped change' ∧
      ∀ key, (∃ op, filedAt change' op key ≠ none) ↔
        (∃ op, filedAt change op key ≠ none) ∨ ∃ e ∈ data, r.storedName e.1 = key
  | [], change, _, h, _, hall => by
    cases hall
    exact ⟨h, fun key => by simp⟩
  | e :: data, change, _, h, he, hall => by
    obtain ⟨hfirst, hrest⟩ := List.forall_mem_cons.1 he
    obtain ⟨change₁, hassign, hall⟩ := bind_eq_ok.1 hall
    obtain ⟨hentry, hgroup⟩ := isEntry_of_assign hfirst hassign
    obtain ⟨_, hassign', hgrouped, hfiled⟩ := assign_entry (r := r) h hentry
    obtain rfl := Except.ok.inj (hassign.symm.trans hassign')
    obtain ⟨hgrouped₂, hnames⟩ := assignAll_addresses hgrouped hrest hall
    refine ⟨hgrouped₂, fun key => ?_⟩
    have hone : (∃ op, filedAt change₁ op key ≠ none) ↔
        (∃ op, filedAt change op key ≠ none) ∨ r.storedName e.1 = key := by
      simp only [hfiled, refile, hgroup, field_act]
      constructor
      · rintro ⟨op, hop⟩
        split at hop
        · rename_i hsame
          exact .inr hsame.2
        · exact .inl ⟨op, hop⟩
      · rintro (⟨op, hop⟩ | hname)
        · refine ⟨op, ?_⟩
          split
          · exact Option.some_ne_none _
          · exact hop
        · exact ⟨(r.act e).op, by rw [if_pos ⟨rfl, hname⟩]; exact Option.some_ne_none _⟩
    rw [hnames, hone, List.exists_mem_cons_iff, or_assoc]

/-- **The operators of a change are on the fields that the data name.** -/
theorem groupFields_change {data : Keyed String Assignment} (hdata : ∀ e ∈ data, IsAssigned e) {change : Fields}
    (h : r.change data = .ok change) : r.Stores (Keyed.keys data) (groupFields (.obj change)) := by
  obtain ⟨hgrouped, hnames⟩ := assignAll_addresses .nil hdata h
  intro key
  rw [mem_groupFields hgrouped, hnames]
  simp [filedAt, Keyed.keys]

end

end KeyRule

namespace WriteModel

theorem addresses_forDocument (supply : IdSupply) (fs : Fields) {key : String} (hkey : key ≠ "_id") :
    key ∈ (forDocument supply (.obj fs)).1.addresses ↔ key ∈ Keyed.keys fs := by
  rw [forDocument]
  cases hid : Keyed.get? fs "_id" with
  | some id => rfl
  | none =>
    have hset : key ∈ Keyed.keys (Keyed.set fs "_id" supply.take.1.toValue) ↔ key ∈ Keyed.keys fs := by
      rw [Keyed.mem_keys, Keyed.get?_set_ne _ _ hkey.symm, Keyed.mem_keys]
    exact hset

theorem addresses_forDocuments {key : String} (hkey : key ≠ "_id") : ∀ (supply : IdSupply) (documents : List Fields),
    (∃ w ∈ (forDocuments supply (documents.map .obj)).1, key ∈ w.addresses) ↔
      ∃ fs ∈ documents, key ∈ Keyed.keys fs
  | _, [] => by simp [forDocuments]
  | supply, fs :: documents => by
    have hrest := addresses_forDocuments hkey (forDocument supply (.obj fs)).2.2 documents
    rw [List.exists_mem_cons_iff, ← addresses_forDocument supply fs hkey, ← hrest]
    exact List.exists_mem_cons_iff _ _ _

end WriteModel

namespace KeyRule

/-! ## The name of the identifier -/

/-- The name that callers know the identifier by, with blanks around it. -/
def Padded (name : String) : Prop := name ≠ "id" ∧ Text.trim name = "id"

instance : DecidablePred Padded := fun name => inferInstanceAs (Decidable (name ≠ "id" ∧ Text.trim name = "id"))

section

variable {r : KeyRule}

theorem storedName_eq_id_iff (hid : r.convertId = true) {name : String} : r.storedName name = "id" ↔ Padded name := by
  unfold storedName Padded
  by_cases hname : name = "id"
  · rw [if_pos ⟨hid, hname⟩]
    exact iff_of_false (by decide) fun h => h.1 hname
  · rw [if_neg fun h => hname h.2]
    exact (and_iff_right hname).symm

theorem Stores.id_iff {names fields : List String} (h : r.Stores names fields) (hid : r.convertId = true) :
    "id" ∈ fields ↔ ∃ name ∈ names, Padded name := by
  rw [h "id"]
  simp only [storedName_eq_id_iff hid]

/-- **A payload addresses a stored field `id` just if something names it with blanks around.**  The bare name is never
taken for one, wherever it stands: in the filter items of a find, an update or a deletion, in the projection or the sort
keys, in a document to insert, or under the operators of a change. -/
theorem addresses_id_iff (hid : r.convertId = true) {q : Request} (hq : ∀ e ∈ q.filter.entries, IsComparison e)
    (hdata : ∀ e ∈ q.data, IsAssigned e) :
    (∀ one p, r.find q one = .ok p →
      ("id" ∈ itemFields p.filter ↔ ∃ name ∈ q.conditionNames, Padded name) ∧
      ("id" ∈ Keyed.keys (p.options.projection.getD []) ↔ ∃ name ∈ Keyed.keys q.selectedFields, Padded name) ∧
      ("id" ∈ (p.options.sort.getD []).map Prod.fst ↔ ∃ name ∈ Keyed.keys q.sort, Padded name)) ∧
    (∀ supply, ∀ w ∈ (r.insertion q supply).1, ("id" ∈ w.addresses ↔ ∃ name ∈ Keyed.keys q.data, Padded name)) ∧
    (∀ rows supply, (∃ w ∈ (r.insertions q rows supply).1, "id" ∈ w.addresses) ↔
      ∃ row ∈ rows, ∃ name ∈ Keyed.keys q.data ++ Keyed.keys row, Padded name) ∧
    (∀ b, r.update q = .ok b → ∀ w ∈ b,
      ("id" ∈ w.addresses ↔ ∃ name ∈ q.conditionNames ++ Keyed.keys q.data, Padded name)) ∧
    ∀ b, r.deletion q = .ok b → ∀ w ∈ b, ("id" ∈ w.addresses ↔ ∃ name ∈ q.conditionNames, Padded name) := by
  have hne : "id" ≠ "_id" := by decide
  refine ⟨fun one p h => ?_, fun supply w hw => ?_, fun rows supply => ?_, fun b h w hw => ?_, fun b h w hw => ?_⟩
  · obtain ⟨fs, hfs, h⟩ := bind_eq_ok.1 h
    cases h
    exact ⟨(itemFields_compileFilter hq hfs).id_iff hid, (stores_ofList q.selectedFields Prod.snd).id_iff hid,
      (stores_map q.sort Prod.snd).id_iff hid⟩
  · rw [List.mem_singleton.1 hw]
    exact (WriteModel.addresses_forDocument supply _ hne).trans ((stores_document q.data).id_iff hid)
  · have hrows : ∀ row, "id" ∈ Keyed.keys (r.document (q.mergeData row).data) ↔
        ∃ name ∈ Keyed.keys q.data ++ Keyed.keys row, Padded name := fun row => by
      rw [(stores_document _).id_iff hid]
      simp only [Request.mergeData, Keyed.mem_keys_setAll, List.mem_append]
      simp [Keyed.keys]
    have hall := WriteModel.addresses_forDocuments hne supply (rows.map fun row => r.document (q.mergeData row).data)
    rw [List.map_map] at hall
    refine hall.trans ?_
    simp only [List.mem_map, exists_exists_and_eq_and, hrows]
  · obtain ⟨fs, hfs, h⟩ := bind_eq_ok.1 h
    obtain ⟨change, hchange, h⟩ := bind_eq_ok.1 h
    cases h
    rw [List.mem_singleton.1 hw]
    exact ((itemFields_compileFilter hq hfs).append (groupFields_change hdata hchange)).id_iff hid
  · obtain ⟨fs, hfs, h⟩ := bind_eq_ok.1 h
    cases h
    rw [List.mem_singleton.1 hw]
    exact (itemFields_compileFilter hq hfs).id_iff hid

end

def byIdentifier : Request where
  filter := [(.and, [(some "id", .plain (.single "=" (.int 1))), (some "id|name", .plain (.single "in" (.str "1,2")))])]
  selection := some (.fields [("id", .int 1), (" name ", .int 1)])
  sort := [("id", -1)]
  data := [("id", .plain (.int 1)), ("logins", .operator "$inc" (.int 1))]

theorem addresses_id_iff_byIdentifier :
    (KeyRule.mk true .native).convertId = true ∧ (∀ e ∈ byIdentifier.filter.entries, IsComparison e) ∧
    (∀ e ∈ byIdentifier.data, IsAssigned e) ∧
    (∃ p, (KeyRule.mk true .native).find byIdentifier true = .ok p ∧ "id" ∉ itemFields p.filter ∧
      "id" ∉ Keyed.keys (p.options.projection.getD []) ∧ "id" ∉ (p.options.sort.getD []).map Prod.fst) ∧
    ∃ b, (KeyRule.mk true .native).update byIdentifier = .ok b ∧ ∀ w ∈ b, "id" ∉ w.addresses := by
  have hcompares : ∀ e ∈ byIdentifier.filter.entries, IsComparison e := by
    refine List.forall_mem_cons.2 ⟨⟨_, _, _, rfl, fun op v h => ?_⟩, List.forall_mem_singleton.2
      ⟨_, _, _, rfl, fun op v h => ?_⟩⟩
    all_goals
      cases h
      decide
  have hdata : ∀ e ∈ byIdentifier.data, IsAssigned e := by
    refine List.forall_mem_cons.2 ⟨⟨fun _ _ => by decide, fun v h => ?_⟩, List.forall_mem_singleton.2
      ⟨fun _ _ => by decide, fun v h => ?_⟩⟩
    · cases h
    · exact absurd (Assignment.operator.inj h).1 (by decide)
  obtain ⟨hfind, -, -, hupdate, -⟩ := addresses_id_iff (r := ⟨true, .native⟩) rfl hcompares hdata
  obtain ⟨hfilter, hprojection, hsort⟩ := hfind true _ rfl
  refine ⟨rfl, hcompares, hdata, ⟨_, rfl, fun h => ?_, fun h => ?_, fun h => ?_⟩, _, rfl, fun w hw h => ?_⟩
  · exact absurd (hfilter.1 h) (by decide)
  · exact absurd (hprojection.1 h) (by decide)
  · exact absurd (hsort.1 h) (by decide)
  · exact absurd ((hupdate _ rfl w hw).1 h) (by decide)

/-- **With a blank before it the name reaches a stored field.** -/
theorem padded_name_reaches_field :
    (KeyRule.mk true .supplied).compileFilter (alone .and " id " (.single "=" (.int 1))) =
      .ok [("$and", .arr [.obj [("id", .int 1)]])] ∧
    (KeyRule.mk true .supplied).compileFilter (alone .and "name | id" (.single "=" (.int 1))) =
      .ok [("$or", .arr [.obj [("name", .int 1)], .obj [("id", .int 1)]])] := by
  refine ⟨?_, ?_⟩
  · rfl
  · rfl

end KeyRule

end DocQuery
