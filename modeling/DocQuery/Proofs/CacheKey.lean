import DocQuery.Proofs.CachedRead
import DocQuery.Proofs.ValueText
import DocQuery.Proofs.WalkOrder

/-!
# What a derived key tells

The key of a read is made of its table, its kind and what it compiles to.  The value of a find tells its rows if no
field is sorted by twice (`FindPayload.find_congr`), and that of a command is the command.  What `value` and `column` do
with the rows is told as well if their names are stored as no other names are (`Read.IsClear`); then reading through the
cache makes no difference (`ReadCall.cached_reads_transparent`).  Otherwise it can (`ReadCall.columns_share_key`).
-/
namespace DocQuery

namespace FindOptions

theorem get?_flagged (key key' : String) (on : Bool) :
    Keyed.get? (flagged key on) key' = if key = key' ∧ on = true then some (.bool true) else none := by
  cases on with
  | false => simp [flagged]
  | true => simp [flagged, Keyed.get?_cons]

theorem getD_projectionOrNone (o : FindOptions) : o.projectionOrNone.getD [] = o.projection.getD [] := by
  unfold projectionOrNone
  cases o.projection with
  | none => rfl
  | some fs => cases fs <;> rfl

theorem getD_sortOrNone (o : FindOptions) : o.sortOrNone.getD [] = o.sort.getD [] := by
  unfold sortOrNone
  cases o.sort with
  | none => rfl
  | some keys => cases keys <;> rfl

theorem field?_toValue (o : FindOptions) : o.toValue.field? "projection" = o.projectionOrNone.map .obj ∧
    o.toValue.field? "sort" = o.sortOrNone.map SortKeys.toValue ∧
    o.toValue.field? "skip" = o.skip.map .ofNat ∧ o.toValue.field? "limit" = o.limit.map .ofNat := by
  simp [toValue, Value.field?, Value.fields?, Keyed.get?_append, get?_optional, get?_flagged]

end FindOptions

theorem SortKeys.toValue_injective {keys keys' : SortKeys} (h : (Keyed.keys keys).Nodup) (h' : (Keyed.keys keys').Nodup)
    (he : keys.toValue = keys'.toValue) : keys = keys' := by
  have hof : ∀ {keys : SortKeys}, (Keyed.keys keys).Nodup →
      keys.toValue = .obj (keys.map fun e => (e.1, Value.int e.2)) := by
    intro keys hn
    rw [toValue, Keyed.ofList_eq_self]
    rw [Keyed.keys, List.map_map]
    exact hn
  rw [hof h, hof h', Value.obj.injEq] at he
  refine (List.map_injective_iff.2 fun e e' hee => ?_) he
  rw [Prod.mk.injEq, Value.int.injEq] at hee
  exact Prod.ext hee.1 hee.2

namespace FindPayload

def SortsOnce (p : FindPayload) : Prop := (Keyed.keys (p.options.sort.getD [])).Nodup

theorem toValue_eq {p p' : FindPayload} : p.toValue = p'.toValue ↔
    p.filter = p'.filter ∧ p.options.toValue = p'.options.toValue := by
  simp [FindPayload.toValue]

theorem projection_congr {p p' : FindPayload} (h : p.toValue = p'.toValue) :
    p.options.projection.getD [] = p'.options.projection.getD [] := by
  have hp := p.options.field?_toValue.1
  rw [(toValue_eq.1 h).2] at hp
  rw [← FindOptions.getD_projectionOrNone, ← FindOptions.getD_projectionOrNone,
    Option.map_injective (fun _ _ h => Value.obj.inj h) (hp.symm.trans p'.options.field?_toValue.1)]

/-- **Of what a find asks for its value tells all that its rows depend on.** -/
theorem find_congr {p p' : FindPayload} (hs : p.SortsOnce) (hs' : p'.SortsOnce) (h : p.toValue = p'.toValue)
    (st : Store) (ns : Namespace) : st.find ns p = st.find ns p' := by
  obtain ⟨hfilter, hoptions⟩ := toValue_eq.1 h
  obtain ⟨-, hk, hskip, hl⟩ := p.options.field?_toValue
  obtain ⟨-, hk', hskip', hl'⟩ := p'.options.field?_toValue
  rw [hoptions] at hk hskip hl
  have hsort : p.options.sort.getD [] = p'.options.sort.getD [] := by
    have hmap := hk.symm.trans hk'
    unfold SortsOnce at hs hs'
    rw [← FindOptions.getD_sortOrNone] at hs hs' ⊢
    rw [← FindOptions.getD_sortOrNone]
    cases ho : p.options.sortOrNone with
    | none =>
      cases ho' : p'.options.sortOrNone with
      | none => rfl
      | some keys' => rw [ho, ho'] at hmap; cases hmap
    | some keys =>
      cases ho' : p'.options.sortOrNone with
      | none => rw [ho, ho'] at hmap; cases hmap
      | some keys' =>
        rw [ho, ho'] at hmap
        rw [ho] at hs
        rw [ho'] at hs'
        exact SortKeys.toValue_injective hs hs' (Option.some.inj hmap)
  have hnat : Function.Injective Value.ofNat := fun n n' h => Int.ofNat.inj (Value.int.inj h)
  have hskip : p.options.skip = p'.options.skip := Option.map_injective hnat (hskip.symm.trans hskip')
  have hlimit : p.options.limit = p'.options.limit := Option.map_injective hnat (hl.symm.trans hl')
  unfold Store.find
  rw [hfilter, projection_congr h, hsort, hskip, hlimit]

end FindPayload

/-! ## Names -/

namespace Text

theorem trim_ne_star {s : String} (h : hasChar ',' s = true) : trim s ≠ "*" := by
  intro he
  have hmem : ',' ∈ s.toList := by simpa [hasChar] using h
  have hstar := congrArg String.toList he
  rw [trim, String.toList_ofList] at hstar
  have htrim := mem_trimList (by decide) hmem
  rw [hstar] at htrim
  simp at htrim

structure IsItem (s : String) : Prop where
  trimmed : trim s = s
  comma : hasChar ',' s = false
  ne_star : s ≠ "*"
  ne_empty : s ≠ ""

theorem splitList_item {s : String} (h : IsItem s) : splitList s = [s] := by
  rw [splitList, cut_eq_self h.comma]
  simp [h.trimmed, h.ne_empty]

theorem splitList_append {s : String} (h : IsItem s) (r : String) : splitList (s ++ "," ++ r) = s :: splitList r := by
  have hlist : (s ++ "," ++ r).toList = s.toList ++ ',' :: r.toList := by simp
  rw [splitList, cut_append hlist h.comma]
  simp [splitList, h.trimmed, h.ne_empty]

end Text

namespace KeyRule

/-- A name that no other one is stored as. -/
structure IsOwn (r : KeyRule) (field : String) : Prop where
  trimmed : Text.trim field = field
  ne_id : r.convertId = true → field ≠ "_id"

theorem IsOwn.eq {r : KeyRule} {f f' : String} (h : r.IsOwn f) (h' : r.IsOwn f')
    (he : r.storedName f = r.storedName f') : f = f' := by
  unfold storedName at he
  rw [h.trimmed, h'.trimmed] at he
  by_cases hc : r.convertId = true
  · have hn := h.ne_id hc
    have hn' := h'.ne_id hc
    by_cases hf : f = "id"
    · by_cases hf' : f' = "id"
      · rw [hf, hf']
      · rw [if_pos ⟨hc, hf⟩, if_neg fun x => hf' x.2] at he
        exact absurd he.symm hn'
    · rw [if_neg fun x => hf x.2] at he
      by_cases hf' : f' = "id"
      · rw [if_pos ⟨hc, hf'⟩] at he
        exact absurd he hn
      · rw [if_neg fun x => hf' x.2] at he
        exact he
  · rw [if_neg fun x => hc x.1, if_neg fun x => hc x.1] at he
    exact he

def projectionOf (r : KeyRule) (names : List String) : Fields :=
  Keyed.ofList ((Keyed.ofList (names.map fun n => (n, Value.int 1))).map fun e => (r.storedName e.1, e.2))

theorem projectionOf_one (r : KeyRule) (f : String) : r.projectionOf [f] = [(r.storedName f, .int 1)] := rfl

theorem projectionOf_two {r : KeyRule} {f f' : String} (h : r.storedName f ≠ r.storedName f') :
    r.projectionOf [f, f'] = [(r.storedName f, .int 1), (r.storedName f', .int 1)] := by
  have hne : f ≠ f' := fun e => h (by rw [e])
  have hnames : Keyed.ofList ([f, f'].map fun n => (n, Value.int 1)) = [(f, .int 1), (f', .int 1)] :=
    Keyed.ofList_eq_self (by simp [Keyed.keys, hne])
  rw [projectionOf, hnames]
  exact Keyed.ofList_eq_self (by simp [Keyed.keys, h])

theorem head?_projectionOf (r : KeyRule) (f : String) (names : List String) :
    (Keyed.keys (r.projectionOf (f :: names))).head? = some (r.storedName f) := by
  have hnames := Keyed.head?_keys_ofList (f, Value.int 1) (names.map fun n => (n, Value.int 1))
  unfold projectionOf
  rw [List.map_cons]
  cases hof : Keyed.ofList ((f, Value.int 1) :: names.map fun n => (n, Value.int 1)) with
  | nil => rw [hof] at hnames; cases hnames
  | cons e es =>
    rw [hof] at hnames
    rw [List.map_cons, Keyed.head?_keys_ofList]
    cases hnames
    rfl

/-- A column whose fields tell its path and its key, and whether it consists of whole rows. -/
inductive IsColumn (r : KeyRule) : String → String → Prop where
  | plain {field : String} (item : Text.IsItem field) (own : r.IsOwn field) : IsColumn r field ""
  | keyed {field key : String} (item : Text.IsItem field) (own : r.IsOwn field) (keyItem : Text.IsItem key)
      (keyOwn : r.IsOwn key) (apart : r.storedName key ≠ r.storedName field) : IsColumn r field key
  | whole {field key : String} (list : Text.hasChar ',' field = true) (keyItem : Text.IsItem key) (keyOwn : r.IsOwn key)
      (many : 3 ≤ (r.projectionOf (key :: Text.splitList field)).length) : IsColumn r field key

def columnNames (field key : String) : List String :=
  if key = "" then [field] else key :: Text.splitList field

theorem columnFields_keyed {field key : String} (hk : key ≠ "") (hf : Text.trim field ≠ "*") :
    Session.columnFields field key = key ++ "," ++ field := if_pos ⟨hk, hf⟩

theorem trim_columnFields {field key : String} (hk : key ≠ "") (hf : Text.trim field ≠ "*") :
    Text.trim (Session.columnFields field key) ≠ "*" := by
  rw [columnFields_keyed hk hf]
  exact Text.trim_ne_star (by simp [Text.hasChar])

theorem findOptions_select (r : KeyRule) (q : Request) {text : String} (h : Text.trim text ≠ "*") (one : Bool) :
    (r.findOptions (q.select (.ofText text) false) one).projection = some (r.projectionOf (Text.splitList text)) := by
  rw [FieldChoice.ofText, if_neg h]
  rfl

theorem IsColumn.projection {r : KeyRule} {field key : String} (h : r.IsColumn field key) (q : Request) (one : Bool) :
    (r.findOptions (q.select (.ofText (Session.columnFields field key)) false) one).projection =
      some (r.projectionOf (columnNames field key)) := by
  cases h with
  | plain item own =>
    have hfields : Session.columnFields field "" = field := if_neg fun h => h.1 rfl
    rw [hfields, findOptions_select r q (by rw [item.trimmed]; exact item.ne_star), Text.splitList_item item]
    rfl
  | keyed item own keyItem keyOwn apart =>
    have hstar : Text.trim field ≠ "*" := by rw [item.trimmed]; exact item.ne_star
    rw [findOptions_select r q (trim_columnFields keyItem.ne_empty hstar), columnFields_keyed keyItem.ne_empty hstar,
      Text.splitList_append keyItem, columnNames, if_neg keyItem.ne_empty]
  | whole list keyItem keyOwn many =>
    have hstar : Text.trim field ≠ "*" := Text.trim_ne_star list
    rw [findOptions_select r q (trim_columnFields keyItem.ne_empty hstar), columnFields_keyed keyItem.ne_empty hstar,
      Text.splitList_append keyItem, columnNames, if_neg keyItem.ne_empty]

theorem projectionOf_plain (r : KeyRule) (field : String) :
    r.projectionOf (columnNames field "") = [(r.storedName field, .int 1)] := by
  rw [columnNames, if_pos rfl, projectionOf_one]

theorem projectionOf_keyed {r : KeyRule} {field key : String} (item : Text.IsItem field) (keyItem : Text.IsItem key)
    (apart : r.storedName key ≠ r.storedName field) : r.projectionOf (columnNames field key) =
      [(r.storedName key, .int 1), (r.storedName field, .int 1)] := by
  rw [columnNames, if_neg keyItem.ne_empty, Text.splitList_item item, projectionOf_two apart]

theorem projectionOf_whole {r : KeyRule} {field key : String} (keyItem : Text.IsItem key)
    (many : 3 ≤ (r.projectionOf (key :: Text.splitList field)).length) :
    3 ≤ (r.projectionOf (columnNames field key)).length ∧
      (Keyed.keys (r.projectionOf (columnNames field key))).head? = some (r.storedName key) := by
  rw [columnNames, if_neg keyItem.ne_empty]
  exact ⟨many, head?_projectionOf r key _⟩

/-- **The fields of a column tell how it is made of rows.**  One field is a path, two are a key and a path, and more
stand for whole rows behind a key. -/
theorem IsColumn.columnOf_congr {r : KeyRule} {f k f' k' : String} (h : r.IsColumn f k) (h' : r.IsColumn f' k')
    (he : r.projectionOf (columnNames f k) = r.projectionOf (columnNames f' k')) (rows : List Value) :
    Session.columnOf f k rows = Session.columnOf f' k' rows := by
  cases h with
  | plain item own =>
    rw [projectionOf_plain] at he
    cases h' with
    | plain item' own' =>
      rw [projectionOf_plain] at he
      simp only [List.cons.injEq, Prod.mk.injEq, and_true] at he
      rw [own.eq own' he]
    | keyed item' own' keyItem' keyOwn' apart' =>
      rw [projectionOf_keyed item' keyItem' apart'] at he
      simp at he
    | whole list' keyItem' keyOwn' many' =>
      have hmany := (projectionOf_whole keyItem' many').1
      rw [← he] at hmany
      simp at hmany
  | keyed item own keyItem keyOwn apart =>
    rw [projectionOf_keyed item keyItem apart] at he
    cases h' with
    | plain item' own' =>
      rw [projectionOf_plain] at he
      simp at he
    | keyed item' own' keyItem' keyOwn' apart' =>
      rw [projectionOf_keyed item' keyItem' apart'] at he
      simp only [List.cons.injEq, Prod.mk.injEq, and_true] at he
      rw [own.eq own' he.2, keyOwn.eq keyOwn' he.1]
    | whole list' keyItem' keyOwn' many' =>
      have hmany := (projectionOf_whole keyItem' many').1
      rw [← he] at hmany
      simp at hmany
  | whole list keyItem keyOwn many =>
    obtain ⟨hmany, hhead⟩ := projectionOf_whole keyItem many
    rw [he] at hmany hhead
    cases h' with
    | plain item' own' =>
      rw [projectionOf_plain] at hmany
      simp at hmany
    | keyed item' own' keyItem' keyOwn' apart' =>
      rw [projectionOf_keyed item' keyItem' apart'] at hmany
      simp at hmany
    | whole list' keyItem' keyOwn' many' =>
      have hkey := hhead.symm.trans (projectionOf_whole keyItem' many').2
      have hwhole : ∀ {field : String}, Text.hasChar ',' field = true → Session.isWhole field = true := fun h => by
        simp [Session.isWhole, h]
      unfold Session.columnOf
      rw [keyOwn.eq keyOwn' (Option.some.inj hkey), hwhole list, hwhole list', if_neg keyItem'.ne_empty,
        if_neg keyItem'.ne_empty]
      rfl

end KeyRule

def Plan.SortsOnce : Plan → Prop
  | find p => p.SortsOnce
  | command _ => True

/-- **The value of a plan tells its rows.** -/
theorem Plan.rows_congr {p p' : Plan} (hs : p.SortsOnce) (hs' : p'.SortsOnce) (h : p.toValue = p'.toValue)
    (st : Store) (database table : String) : p.rows st database table = p'.rows st database table := by
  cases p with
  | find p =>
    cases p' with
    | find p' =>
      simp only [rows, FindPayload.find_congr hs hs' h]
    | command c' => cases h
  | command c =>
    cases p' with
    | find p' => cases h
    | command c' =>
      obtain ⟨fields, hfields⟩ := c
      obtain ⟨fields', hfields'⟩ := c'
      cases h
      rfl

/-- The names in a read tell how its result is made of rows. -/
def Read.IsClear (r : KeyRule) : Read → Prop
  | .value field _ => r.IsOwn field
  | .column field key => r.IsColumn field key
  | _ => True

theorem Read.plan_value (r : KeyRule) (q : Request) (field : String) (default : Value) :
    (Read.value field default).plan r q = (r.find q true).map .find := rfl

theorem Read.plan_column (r : KeyRule) (q : Request) (field key : String) :
    (Read.column field key).plan r q = (r.find q false).map .find := rfl

theorem KeyRule.options_find {r : KeyRule} {q : Request} {one : Bool} {p : FindPayload} (h : r.find q one = .ok p) :
    p.options = r.findOptions q one := by
  obtain ⟨fs, -, hp⟩ := bind_eq_ok.1 h
  cases hp
  rfl

namespace ReadCall

/-- The parts of a call that its key leaves out make no difference to its result. -/
structure IsClear (c : ReadCall) (s : Session Memory) : Prop where
  names : c.read.IsClear s.keyRule
  sorts : ∀ p, c.plan s = .ok p → p.SortsOnce

section

variable {c c' : ReadCall} {s : Session Memory} {p p' : Plan} {database : Role → String}

theorem reduce_congr (hp : c.plan s = .ok p) (hp' : c'.plan s = .ok p') (hc : c.read.IsClear s.keyRule)
    (hc' : c'.read.IsClear s.keyRule) (hkind : c.read.kind = c'.read.kind) (hvalue : p.toValue = p'.toValue)
    (rows : List Value) : c.read.reduce rows = c'.read.reduce rows := by
  obtain ⟨r, q⟩ := c
  obtain ⟨r', q'⟩ := c'
  cases r with
  | select => cases r' <;> first | rfl | simp [Read.kind] at hkind
  | find => cases r' <;> first | rfl | simp [Read.kind] at hkind
  | count => cases r' <;> first | rfl | simp [Read.kind] at hkind
  | aggregate op field => cases r' <;> first | rfl | simp [Read.kind] at hkind
  | value field default =>
    cases r' with
    | value field' default' =>
      obtain ⟨x, hx, rfl⟩ := map_eq_ok.1 ((Read.plan_value ..).symm.trans hp)
      obtain ⟨x', hx', rfl⟩ := map_eq_ok.1 ((Read.plan_value ..).symm.trans hp')
      have hfields := FindPayload.projection_congr hvalue
      rw [KeyRule.options_find hx, KeyRule.options_find hx'] at hfields
      have hstored : s.keyRule.projectionOf [Text.trim field] = s.keyRule.projectionOf [Text.trim field'] := hfields
      rw [hc.trimmed, hc'.trimmed, KeyRule.projectionOf_one, KeyRule.projectionOf_one] at hstored
      simp only [List.cons.injEq, Prod.mk.injEq, and_true] at hstored
      rw [show field = field' from hc.eq hc' hstored]
      rfl
    | _ => simp [Read.kind] at hkind
  | column field key =>
    cases r' with
    | column field' key' =>
      obtain ⟨x, hx, rfl⟩ := map_eq_ok.1 ((Read.plan_column ..).symm.trans hp)
      obtain ⟨x', hx', rfl⟩ := map_eq_ok.1 ((Read.plan_column ..).symm.trans hp')
      have hfields := FindPayload.projection_congr hvalue
      rw [KeyRule.options_find hx, KeyRule.options_find hx'] at hfields
      unfold target Read.target at hfields
      rw [KeyRule.IsColumn.projection hc, KeyRule.IsColumn.projection hc'] at hfields
      exact KeyRule.IsColumn.columnOf_congr hc hc' hfields rows
    | _ => simp [Read.kind] at hkind

/-- **Clear calls with one key have one result.** -/
theorem result_congr (hs : s.Uniform database) (hp : c.plan s = .ok p) (hp' : c'.plan s = .ok p') (hc : c.IsClear s)
    (hc' : c'.IsClear s) (hkeyed : c.keyed s p = c'.keyed s p')
    (hdb : database (Session.readRole (c.target s)) = database (Session.readRole (c'.target s))) :
    c.result s = c'.result s := by
  unfold keyed at hkeyed
  simp only [Value.arr.injEq, List.cons.injEq, Value.str.injEq, and_true] at hkeyed
  obtain ⟨htable, hkind, hvalue⟩ := hkeyed
  have hreduce : (fun rows => c.read.reduce rows) = fun rows => c'.read.reduce rows :=
    funext (reduce_congr hp hp' hc.names hc'.names hkind hvalue)
  rw [result_eq hs hp, result_eq hs hp', Plan.rows_congr (hc.sorts p hp) (hc'.sorts p' hp') hvalue, hdb, htable,
    hreduce]

theorem filter_target (c : ReadCall) (s : Session Memory) : (c.target s).filter = c.request.filter := by
  obtain ⟨r, q⟩ := c
  cases r with
  | column field key =>
    unfold target Read.target Request.select
    simp only
    split <;> rfl
  | _ => rfl

theorem plan_bare_of_plain {c : ReadCall} (h : ∀ e ∈ c.request.filter.entries, ∃ x, e.2.2 = .plain x)
    (s : Session Memory) : c.bare.plan s = c.plan s := by
  have hfilter : s.keyRule.compileFilter { c.target s with cache := none } = s.keyRule.compileFilter (c.target s) := by
    rw [KeyRule.compileFilter_eq, KeyRule.compileFilter_eq]
    refine congrArg _ (List.map_congr_left fun e he => ?_)
    rw [filter_target] at he
    obtain ⟨x, hx⟩ := h e he
    unfold KeyRule.contributes
    rw [hx]
    rfl
  have hread : c.bare.read = c.read := rfl
  unfold plan
  rw [target_bare, hread]
  generalize c.target s = q at hfilter ⊢
  unfold Read.plan KeyRule.find KeyRule.countCommand KeyRule.aggregateCommand KeyRule.groupCommand
  rw [hfilter]
  rfl

/-- No two texts that the keys of calls are made of have one digest, and all calls are read from one database. -/
structure ToldApart (R : ReadCall → Prop) (s : Session Memory) (database : Role → String) : Prop where
  digests : ∀ c c' p p', R c → R c' → c.plan s = .ok p → c'.plan s = .ok p' →
    Digest.ofText (c.keyed s p).text = Digest.ofText (c'.keyed s p').text → (c.keyed s p).text = (c'.keyed s p').text
  databases : ∀ c c', R c → R c' →
    database (Session.readRole (c.target s)) = database (Session.readRole (c'.target s))

theorem ToldApart.keyed_eq {R : ReadCall → Prop} (ha : ToldApart R s database) (hc : R c) (hc' : R c')
    (hp : c.plan s = .ok p) (hp' : c'.plan s = .ok p')
    (h : Digest.key "query" (c.keyed s p) = Digest.key "query" (c'.keyed s p')) : c.keyed s p = c'.keyed s p' := by
  have hdigest : Digest.ofText (c.keyed s p).text = Digest.ofText (c'.keyed s p').text := by
    have hlist := congrArg String.toList h
    simp only [Digest.key, String.toList_append] at hlist
    exact String.toList_inj.1 (List.append_cancel_left hlist)
  exact Value.text_injective (ha.digests c c' p p' hc hc' hp hp' hdigest)

theorem agree_of_clear {R : ReadCall → Prop} (hs : s.Uniform database) (hR : ∀ c, R c → c.Derived s)
    (ha : ToldApart R s database) (hclear : ∀ c, R c → c.IsClear s) : Agree R s := by
  rintro c c' key e hc hc' ⟨p, hp, rfl⟩ ⟨p', hp', hkey⟩ he
  have hkeyed := ha.keyed_eq hc hc' hp hp' hkey
  have hresult := result_congr hs hp hp' (hclear c hc) (hclear c' hc') hkeyed (ha.databases c c' hc hc')
  rw [bare_on hs (hR c' hc').blind, ← hresult, (Session.entryOf_eq_some he).1]
  rfl

/-- **Cached reads are transparent just if calls that share a key have the same use of what one of them leaves there.**
So are clear calls whose keys tell them apart. -/
theorem cached_reads_transparent {R : ReadCall → Prop} (hs : s.Uniform database) (hR : ∀ c, R c → c.Derived s)
    (hfresh : Fresh R s) : ((∀ cs, (∀ c ∈ cs, R c) → Transparent cs s) ↔ Agree R s) ∧
      (ToldApart R s database → (∀ c, R c → c.IsClear s) → ∀ cs, (∀ c ∈ cs, R c) → Transparent cs s) :=
  ⟨transparent_iff_agree hs hR hfresh, fun ha hclear =>
    (transparent_iff_agree hs hR hfresh).2 (agree_of_clear hs hR ha hclear)⟩

end

/-! ## Calls on one table -/

def storedSession : Session Memory :=
  Walk.stored Walk.freshSession ⟨"app", "t"⟩ [.obj [("_id", .int 1), ("a", .str "x"), ("b", .str "y")]]

theorem uniform_storedSession : storedSession.Uniform fun _ => "app" := by
  have hslot : ∀ role n, storedSession.settings.select role n = .standalone := by
    intro role n
    have hone : storedSession.settings.choices role = [.standalone] := by cases role <;> rfl
    simp only [Settings.select, hone, List.length_singleton, Nat.mod_one]
    rfl
  refine ⟨rfl, rfl, rfl, fun role n => ?_, fun role n => ?_⟩
  · rw [hslot]
    exact .inr ⟨rfl, by decide⟩
  · rw [hslot]
    rfl

def keeping (r : Read) : ReadCall := ⟨r, { table := some "t", cache := some {} }⟩

theorem derived_keeping (r : Read) : (keeping r).Derived storedSession :=
  ⟨⟨none, rfl⟩, plan_bare_of_plain (fun e he => by cases he) storedSession⟩

def clearReads : List Read := [.select, .column "a" "", .column "a" "b", .count]

def digestOf (r : Read) : String :=
  match (keeping r).plan storedSession with
  | .ok p => Digest.ofText ((keeping r).keyed storedSession p).text
  | .error _ => ""

theorem digestOf_clearReads : (clearReads.map digestOf).Nodup := by decide +kernel

theorem isItem_a : Text.IsItem "a" := ⟨by decide, by decide, by decide, by decide⟩

theorem isItem_b : Text.IsItem "b" := ⟨by decide, by decide, by decide, by decide⟩

theorem isOwn_of_isItem {name : String} (h : Text.IsItem name) : storedSession.keyRule.IsOwn name :=
  ⟨h.trimmed, fun hc => by cases hc⟩

theorem toldApart_clearReads : ToldApart (fun c => ∃ r ∈ clearReads, c = keeping r) storedSession fun _ => "app" := by
  have hdigest : ∀ {r p}, (keeping r).plan storedSession = .ok p →
      digestOf r = Digest.ofText ((keeping r).keyed storedSession p).text := by
    intro r p hp
    rw [digestOf, hp]
  refine ⟨?_, fun _ _ _ _ => rfl⟩
  rintro _ _ p p' ⟨r, hr, rfl⟩ ⟨r', hr', rfl⟩ hp hp' h
  have hsame : digestOf r = digestOf r' := by rw [hdigest hp, hdigest hp', h]
  obtain rfl := List.inj_on_of_nodup_map digestOf_clearReads hr hr' hsame
  cases hp.symm.trans hp'
  rfl

theorem isClear_clearReads : ∀ r ∈ clearReads, (keeping r).IsClear storedSession := by
  intro r hr
  simp only [clearReads, List.mem_cons, List.not_mem_nil, or_false] at hr
  have hb := isOwn_of_isItem isItem_b
  have ha := isOwn_of_isItem isItem_a
  rcases hr with rfl | rfl | rfl | rfl
  · exact ⟨trivial, fun p hp => by cases hp; exact List.nodup_nil⟩
  · exact ⟨.plain isItem_a ha, fun p hp => by cases hp; exact List.nodup_nil⟩
  · exact ⟨.keyed isItem_a ha isItem_b hb (by decide), fun p hp => by cases hp; exact List.nodup_nil⟩
  · exact ⟨trivial, fun p hp => by cases hp; exact trivial⟩

theorem cached_reads_transparent_clear : (∀ r ∈ clearReads, (keeping r).IsClear storedSession) ∧
    Transparent ((clearReads ++ clearReads.reverse).map keeping) storedSession := by
  have hR : ∀ c, (∃ r ∈ clearReads, c = keeping r) → c.Derived storedSession := by
    rintro _ ⟨r, -, rfl⟩
    exact derived_keeping r
  refine ⟨isClear_clearReads, (cached_reads_transparent uniform_storedSession hR fun _ _ _ _ => rfl).2
    toldApart_clearReads ?_ _ fun c hc => ?_⟩
  · rintro _ ⟨r, hr, rfl⟩
    exact isClear_clearReads r hr
  · obtain ⟨r, hr, rfl⟩ := List.mem_map.1 hc
    exact ⟨r, by simpa using hr, rfl⟩

def wholeColumns : List ReadCall := [keeping (.column "*" "a"), keeping (.column "*" "b")]

/-- **The key of a column does not tell what its rows are kept under**: whole rows by one field are given out as whole
rows by another, though no two keys have one digest. -/
theorem columns_share_key : (∀ c ∈ wholeColumns, c.Derived storedSession) ∧
    ToldApart (· ∈ wholeColumns) storedSession (fun _ => "app") ∧ ¬ Transparent wholeColumns storedSession := by
  obtain ⟨p, hp⟩ : ∃ p, (keeping (.column "*" "a")).plan storedSession = .ok p := ⟨_, rfl⟩
  have hplan : (keeping (.column "*" "b")).plan storedSession = .ok p := hp
  have hkeyed : ∀ c x, c ∈ wholeColumns → c.plan storedSession = .ok x →
      c.keyed storedSession x = (keeping (.column "*" "a")).keyed storedSession p := by
    intro c x hc hx
    rcases List.mem_cons.1 hc with rfl | hc
    · cases hx.symm.trans hp
      rfl
    · obtain rfl := List.mem_singleton.1 hc
      cases hx.symm.trans hplan
      rfl
  refine ⟨fun c hc => ?_, ⟨fun c c' x x' hc hc' hx hx' _ => ?_, fun _ _ _ _ => rfl⟩, fun h => ?_⟩
  · rcases List.mem_cons.1 hc with rfl | hc
    · exact derived_keeping _
    · rw [List.mem_singleton.1 hc]
      exact derived_keeping _
  · rw [hkeyed c x hc hx, hkeyed c' x' hc' hx']
  · have hgives := agree_of_pair uniform_storedSession (derived_keeping (.column "*" "a"))
      (derived_keeping (.column "*" "b")) ⟨p, hp, rfl⟩ ⟨p, hplan, rfl⟩ rfl
      (show Session.entryOf _ = some ⟨.obj [("x", .obj [("_id", .int 1), ("a", .str "x"), ("b", .str "y")])], none⟩
        from rfl) h
    have hby : ((keeping (.column "*" "b")).bare.on storedSession).1 =
        .ok (.value (.obj [("y", .obj [("_id", .int 1), ("a", .str "x"), ("b", .str "y")])])) := rfl
    rw [hby] at hgives
    simp [Read.answer, keeping] at hgives

end ReadCall

end DocQuery
