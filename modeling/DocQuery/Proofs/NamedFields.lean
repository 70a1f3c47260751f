import DocQuery.Compile.Data
import DocQuery.Proofs.FailingChange

/-!
# Updates of named fields

Data that name top-level fields, each of them once, compile to a change with one step for each field
(`KeyRule.change_acts`).  Every operator makes something of the value of its field alone (`Change.outcome?`), so that
such a change succeeds just if every named field allows its operator, and then makes of each named field what its
operator does and leaves all others (`KeyRule.update_of_named_fields`).
-/
namespace DocQuery

/-! ## One field -/

/-- An object comes out of another by giving a field a value, or taking it away. -/
structure FieldBecomes (fs : Fields) (key : String) (after : Option Value) (gs : Fields) : Prop where
  nodup : (Keyed.keys gs).Nodup
  get? : ∀ k, Keyed.get? gs k = if key = k then after else Keyed.get? fs k

namespace FieldBecomes

variable {fs : Fields} {key : String}

theorem set (hk : (Keyed.keys fs).Nodup) (v : Value) : FieldBecomes fs key (some v) (Keyed.set fs key v) :=
  ⟨Keyed.nodup_keys_set hk key v, fun k => Keyed.get?_set fs key k v⟩

theorem swapErase (hk : (Keyed.keys fs).Nodup) : FieldBecomes fs key none (Keyed.swapErase fs key) :=
  ⟨Keyed.nodup_keys_swapErase hk key, Keyed.get?_swapErase hk key⟩

theorem same {after : Option Value} (hk : (Keyed.keys fs).Nodup) (h : Keyed.get? fs key = after) :
    FieldBecomes fs key after fs := by
  refine ⟨hk, fun k => ?_⟩
  split
  · rename_i heq
    rw [← heq, h]
  · rfl

end FieldBecomes

namespace Change

/-- The array in a field with other items; a missing one is empty, and what is no array is in the way. -/
def grown? (edit : List Value → List Value) (old : Option Value) : Option (Option Value) :=
  (old.getD (.arr [])).items?.map fun xs => some (.arr (edit xs))

/-- The array in a field with other items; a missing one is empty, and what is no array stays. -/
def shrunk (edit : List Value → List Value) (old : Option Value) : Value :=
  match old.getD (.arr []) with
  | .arr xs => .arr (edit xs)
  | v => v

/-- What an operator makes of the value of a field, which may be missing; nothing if the value is in its way. -/
def outcome? (op : String) (operand : Value) (old : Option Value) : Option (Option Value) :=
  match op with
  | "$set" => some (some operand)
  | "$unset" => some none
  | "$inc" =>
    match old with
    | none => some (some operand)
    | some v => (add? v operand).map some
  | "$push" => grown? (· ++ addends operand) old
  | "$pushAll" => grown? (· ++ listOperand operand) old
  | "$addToSet" => grown? (addNew · (addends operand)) old
  | "$pop" =>
    some (some (shrunk (fun items => if operand.signed? = some (-1) then items.drop 1 else items.dropLast) old))
  | "$pull" => some (some (shrunk (without [operand]) old))
  | "$pullAll" => some (some (shrunk (without (listOperand operand)) old))
  | _ => none

/-- A step leads to an object where its field has the outcome, and fails if there is none. -/
inductive Leads (fs : Fields) (key : String) : Option (Option Value) → Except ChangeFault Value → Prop
  | done {after : Option Value} {gs : Fields} (h : FieldBecomes fs key after gs) :
      Leads fs key (some after) (.ok (.obj gs))
  | refused (e : ChangeFault) : Leads fs key none (.error e)

section

variable {fs : Fields} {key : String}

theorem Leads.set (hk : (Keyed.keys fs).Nodup) (hkey : Text.hasChar '.' key = false) (v : Value) :
    Leads fs key (some (some v)) (.ok ((Value.obj fs).setPath key v)) := by
  rw [Value.setPath_single hkey]
  exact .done (.set hk v)

theorem withTarget_single (hkey : Text.hasChar '.' key = false) :
    withTarget (.obj fs) key = .obj (match Keyed.get? fs key with
      | some _ => fs
      | none => Keyed.set fs key (.arr [])) := by
  rw [withTarget, Value.path?_single hkey]
  cases Keyed.get? fs key with
  | none => exact Value.setPath_single hkey fs _
  | some v => rfl

theorem target?_single (hkey : Text.hasChar '.' key = false) :
    target? (withTarget (.obj fs) key) key = ((Keyed.get? fs key).getD (.arr [])).items? := by
  rw [withTarget_single hkey, target?, Path.ofText_single hkey, Value.throughObjects?_obj]
  cases h : Keyed.get? fs key with
  | none =>
    rw [Keyed.get?_set_self]
    rfl
  | some v =>
    simp only
    rw [h]
    rfl

theorem setItems_single (hk : (Keyed.keys fs).Nodup) (hkey : Text.hasChar '.' key = false) (xs : List Value) :
    Leads fs key (some (some (.arr xs))) (.ok (setItems (withTarget (.obj fs) key) key xs)) := by
  rw [withTarget_single hkey, setItems, Path.ofText_single hkey, Value.modifyAt]
  cases h : Keyed.get? fs key with
  | none =>
    rw [Keyed.get?_set_self]
    simp only [Keyed.set_set]
    exact .done (.set hk _)
  | some v =>
    simp only [h]
    exact .done (.set hk _)

theorem editArray_single (hk : (Keyed.keys fs).Nodup) (hkey : Text.hasChar '.' key = false) (op : String)
    (edit : List Value → List Value) :
    Leads fs key (grown? edit (Keyed.get? fs key)) (editArray op key (.obj fs) edit) := by
  rw [editArray, target?_single hkey, grown?]
  cases ((Keyed.get? fs key).getD (.arr [])).items? with
  | none => exact .refused _
  | some xs => exact setItems_single hk hkey (edit xs)

theorem shrinkArray_single (hk : (Keyed.keys fs).Nodup) (hkey : Text.hasChar '.' key = false)
    (edit : List Value → List Value) :
    Leads fs key (some (some (shrunk edit (Keyed.get? fs key)))) (.ok (shrinkArray key (.obj fs) edit)) := by
  rw [shrinkArray, target?_single hkey, shrunk]
  cases h : Keyed.get? fs key with
  | none => exact setItems_single hk hkey (edit [])
  | some v =>
    rw [Option.getD_some]
    cases v with
    | arr xs => exact setItems_single hk hkey (edit xs)
    -- what is no array stays
    | _ =>
      rw [withTarget_single hkey, h]
      exact .done (.same hk h)

theorem increment_single (hk : (Keyed.keys fs).Nodup) (hkey : Text.hasChar '.' key = false) (step : Value) :
    Leads fs key (match Keyed.get? fs key with
        | none => some (some step)
        | some v => (add? v step).map some)
      (increment (.obj fs) key step) := by
  rw [increment, Value.path?_single hkey]
  cases Keyed.get? fs key with
  | none => exact .set hk hkey step
  | some v =>
    simp only
    cases add? v step with
    | none => exact .refused _
    | some sum => exact .set hk hkey sum

/-- **An operator gives its field the outcome**, or fails where there is none. -/
theorem operate_single (hk : (Keyed.keys fs).Nodup) (hkey : Text.hasChar '.' key = false) (op : String)
    (operand : Value) : Leads fs key (outcome? op operand (Keyed.get? fs key)) (operate op key operand (.obj fs)) := by
  unfold operate
  split
  · exact .set hk hkey operand
  · rw [Value.removePath_single hkey]
    exact .done (.swapErase hk)
  · exact increment_single hk hkey operand
  · exact editArray_single hk hkey _ _
  · exact editArray_single hk hkey _ _
  · exact editArray_single hk hkey _ _
  · exact shrinkArray_single hk hkey _
  · exact shrinkArray_single hk hkey _
  · exact shrinkArray_single hk hkey _
  · rename_i hset hunset hinc hpush hpushAll haddToSet hpop hpull hpullAll
    have hnone : outcome? op operand (Keyed.get? fs key) = none := by
      unfold outcome?
      split
      all_goals first | rfl | contradiction
    rw [hnone]
    exact .refused _

theorem Leads.inv {after? : Option (Option Value)} {result : Except ChangeFault Value}
    (h : Leads fs key after? result) :
    (∃ after gs, after? = some after ∧ result = .ok (.obj gs) ∧ FieldBecomes fs key after gs) ∨
      after? = none ∧ ∃ e, result = .error e := by
  cases h with
  | done h => exact .inl ⟨_, _, rfl, rfl, h⟩
  | refused e => exact .inr ⟨rfl, e, rfl⟩

end

/-! ## Several fields -/

structure Act where
  op : String
  field : String
  operand : Value

namespace Act

def step (a : Act) : Step := .act a.op a.field a.operand

def outcome? (a : Act) (fs : Fields) : Option (Option Value) := Change.outcome? a.op a.operand (Keyed.get? fs a.field)

/-- The operators are on fields of their own, none of which is a path. -/
structure Separate (as : List Act) : Prop where
  distinct : (as.map field).Nodup
  undotted : ∀ a ∈ as, Text.hasChar '.' a.field = false

/-- Every operator has made of its field what it makes of it alone, and all other fields are as they were. -/
structure Made (as : List Act) (fs gs : Fields) : Prop where
  nodup : (Keyed.keys gs).Nodup
  named : ∀ a ∈ as, a.outcome? fs = some (Keyed.get? gs a.field)
  others : ∀ key, (∀ a ∈ as, a.field ≠ key) → Keyed.get? gs key = Keyed.get? fs key

theorem Separate.perm {as bs : List Act} (h : Separate as) (hp : as.Perm bs) : Separate bs :=
  ⟨(hp.map field).nodup_iff.1 h.distinct, fun a ha => h.undotted a (hp.mem_iff.2 ha)⟩

theorem outcome?_of_becomes {a b : Act} {after : Option Value} {fs gs : Fields} (hne : a.field ≠ b.field)
    (h : FieldBecomes fs a.field after gs) : b.outcome? gs = b.outcome? fs := by
  rw [outcome?, outcome?, h.get?, if_neg hne]

theorem Made.cons {a : Act} {as : List Act} {after : Option Value} {fs fs' gs : Fields}
    (hafter : a.outcome? fs = some after) (hbecomes : FieldBecomes fs a.field after fs')
    (hne : ∀ b ∈ as, a.field ≠ b.field) (h : Made as fs' gs) : Made (a :: as) fs gs := by
  refine ⟨h.nodup, List.forall_mem_cons.2 ⟨?_, fun b hb => ?_⟩, fun key hkey => ?_⟩
  · rw [h.others a.field fun b hb => (hne b hb).symm, hbecomes.get?, if_pos rfl]
    exact hafter
  · rw [← outcome?_of_becomes (hne b hb) hbecomes]
    exact h.named b hb
  · obtain ⟨ha, hkey⟩ := List.forall_mem_cons.1 hkey
    rw [h.others key hkey, hbecomes.get?, if_neg ha]

/-- **Operators on fields of their own succeed just if each of them has an outcome, and then make just that.** -/
theorem run_separate : ∀ {as : List Act} {fs : Fields}, Separate as → (Keyed.keys fs).Nodup →
    ((∃ new, runSteps (as.map step) (.obj fs) = (new, none)) ↔ ∀ a ∈ as, (a.outcome? fs).isSome = true) ∧
    ∀ new, runSteps (as.map step) (.obj fs) = (new, none) → ∃ gs, new = .obj gs ∧ Made as fs gs
  | [], fs, _, hk => by
    refine ⟨⟨fun _ _ ha => (by cases ha), fun _ => ⟨_, rfl⟩⟩, fun new h => ?_⟩
    cases h
    exact ⟨fs, rfl, hk, fun _ ha => (by cases ha), fun _ _ => rfl⟩
  | a :: as, fs, hs, hk => by
    obtain ⟨hfirst, hdistinct⟩ := List.nodup_cons.1 hs.distinct
    obtain ⟨hdot, hundotted⟩ := List.forall_mem_cons.1 hs.undotted
    have hne : ∀ b ∈ as, a.field ≠ b.field := fun b hb heq => hfirst (List.mem_map.2 ⟨b, hb, heq.symm⟩)
    rw [List.map_cons, runSteps, step, Step.run]
    rcases (operate_single hk hdot a.op a.operand).inv with ⟨after, fs', hafter, hrun, hbecomes⟩ | ⟨hnone, e, hrun⟩
    · have hsame : ∀ b ∈ as, b.outcome? fs' = b.outcome? fs := fun b hb => outcome?_of_becomes (hne b hb) hbecomes
      obtain ⟨hiff, hmade⟩ := run_separate ⟨hdistinct, hundotted⟩ hbecomes.nodup
      rw [hrun]
      refine ⟨hiff.trans ⟨fun h => ?_, fun h b hb => ?_⟩, fun new hnew => ?_⟩
      · refine List.forall_mem_cons.2 ⟨?_, fun b hb => hsame b hb ▸ h b hb⟩
        rw [outcome?, hafter]
        rfl
      · rw [hsame b hb]
        exact h b (List.mem_cons_of_mem _ hb)
      · obtain ⟨gs, rfl, hgs⟩ := hmade new hnew
        exact ⟨gs, rfl, .cons hafter hbecomes hne hgs⟩
    · rw [hrun]
      have hfails : ¬ ∀ b ∈ a :: as, (b.outcome? fs).isSome = true := fun h => by
        have hsome := h a List.mem_cons_self
        rw [outcome?, hnone] at hsome
        cases hsome
      refine ⟨iff_of_false ?_ hfails, fun new hnew => (by cases hnew)⟩
      rintro ⟨new, hnew⟩
      cases hnew

end Act

/-! ## Changes that group operators -/

/-- A change as data compile to: each operator once, with the fields under it. -/
structure Grouped (fs : Fields) : Prop where
  nodup : (Keyed.keys fs).Nodup
  operators : ∀ e ∈ fs, Text.startsWith e.1 "$" = true
  groups : ∀ e ∈ fs, ∃ group, e.2 = .obj group

def acts : List (String × Value) → List Act
  | [] => []
  | (op, .obj fields) :: r => fields.map (fun e => ⟨op, e.1, e.2⟩) ++ acts r
  | _ :: r => acts r

theorem acts_append : ∀ fs gs : List (String × Value), acts (fs ++ gs) = acts fs ++ acts gs
  | [], _ => rfl
  | (op, v) :: fs, gs => by
    cases v with
    | obj fields => rw [List.cons_append, acts, acts, acts_append fs gs, List.append_assoc]
    | _ => exact acts_append fs gs

theorem steps_eq_acts : ∀ {fs : List (String × Value)}, (∀ e ∈ fs, ∃ group, e.2 = .obj group) →
    steps fs = (acts fs).map Act.step
  | [], _ => rfl
  | (op, v) :: fs, h => by
    obtain ⟨⟨fields, rfl⟩, hfs⟩ := List.forall_mem_cons.1 h
    rw [steps, acts, steps_eq_acts hfs, List.map_append, List.map_map]
    rfl

theorem Grouped.nil : Grouped [] := ⟨.nil, fun _ he => (by cases he), fun _ he => (by cases he)⟩

theorem Grouped.set {fs : Fields} (h : Grouped fs) {op : String} (hop : Text.startsWith op "$" = true)
    (group : Fields) : Grouped (Keyed.set fs op (.obj group)) := by
  refine ⟨Keyed.nodup_keys_set h.nodup _ _, fun e he => ?_, fun e he => ?_⟩
  · rcases Keyed.mem_set he with rfl | he
    · exact hop
    · exact h.operators e he
  · rcases Keyed.mem_set he with rfl | he
    · exact ⟨group, rfl⟩
    · exact h.groups e he

end Change

namespace KeyRule

open Change (Act Grouped acts)

/-- **Putting a new field under an operator adds one step.** -/
theorem putUnder_grouped {fs : Fields} (h : Grouped fs) {op key : String} (hop : Text.startsWith op "$" = true)
    (hnew : ∀ a ∈ acts fs, a.field ≠ key) (v : Value) :
    Grouped (putUnder fs op key v) ∧ (acts (putUnder fs op key v)).Perm (acts fs ++ [⟨op, key, v⟩]) := by
  unfold putUnder
  cases hget : Keyed.get? fs op with
  | none =>
    refine ⟨h.set hop _, ?_⟩
    rw [Keyed.set_of_get?_none hget, Change.acts_append]
    rfl
  | some w =>
    obtain ⟨group, rfl⟩ := h.groups _ (Keyed.mem_of_get? hget)
    refine ⟨h.set hop _, ?_⟩
    obtain ⟨before, behind, hfs, -, hset⟩ := Keyed.set_split hget
    have hfield : Keyed.get? group key = none := Keyed.get?_eq_none.2 fun e he => by
      refine hnew ⟨op, e.1, e.2⟩ ?_
      rw [hfs, Change.acts_append, acts]
      simp only [List.mem_append, List.mem_map]
      exact .inr (.inl ⟨e, he, rfl⟩)
    simp only
    rw [hset, hfs, Change.acts_append, Change.acts_append, acts, acts, Keyed.set_of_get?_none hfield, List.map_append]
    simp only [List.map_cons, List.map_nil, List.append_assoc]
    exact ((List.perm_append_comm).append_left _).append_left _

def act (r : KeyRule) : String × Assignment → Act
  | (field, .plain v) => ⟨"$set", r.storedName field, r.storedValue (r.storedName field) v⟩
  | (field, .operator op v) => ⟨op, r.storedName field, v⟩

theorem field_act (r : KeyRule) (e : String × Assignment) : (r.act e).field = r.storedName e.1 := by
  obtain ⟨field, v | ⟨op, v⟩⟩ := e <;> rfl

/-- An assignment of a value or by one of the update operators, to a field that is none itself. -/
def IsOrdinary (e : String × Assignment) : Prop :=
  Text.startsWith e.1 "$" = false ∧ ∀ op v, e.2 = .operator op v → op ∈ updateOperators

theorem dollar_of_mem_updateOperators : ∀ op ∈ updateOperators, Text.startsWith op "$" = true ∧ op ≠ "exp" := by decide

theorem assign_grouped {r : KeyRule} {fs : Fields} (h : Grouped fs) {e : String × Assignment} (he : IsOrdinary e)
    (hnew : ∀ a ∈ acts fs, a.field ≠ r.storedName e.1) :
    ∃ fs', r.assign fs e.1 e.2 = .ok fs' ∧ Grouped fs' ∧ (acts fs').Perm (acts fs ++ [r.act e]) := by
  have hdollar := dollar_of_mem_updateOperators
  obtain ⟨field, a⟩ := e
  obtain ⟨hfield, hops⟩ := he
  cases a with
  | plain v =>
    refine ⟨_, ?_, putUnder_grouped h (hdollar "$set" (by decide)).1 hnew _⟩
    rw [assign, hfield]
    rfl
  | operator op v =>
    have hop := hops op v rfl
    refine ⟨_, ?_, putUnder_grouped h (hdollar op hop).1 hnew _⟩
    rw [assign, if_neg (hdollar op hop).2, if_pos hop]

theorem assignAll_grouped {r : KeyRule} : ∀ {data : List (String × Assignment)} {fs : Fields}, Grouped fs →
    (∀ e ∈ data, IsOrdinary e) → ((acts fs).map Act.field ++ data.map fun e => r.storedName e.1).Nodup →
    ∃ fs', r.assignAll data fs = .ok fs' ∧ Grouped fs' ∧ (acts fs').Perm (acts fs ++ data.map r.act)
  | [], fs, h, _, _ => ⟨fs, rfl, h, by rw [List.map_nil, List.append_nil]⟩
  | e :: data, fs, h, he, hnames => by
    obtain ⟨hfirst, hrest⟩ := List.forall_mem_cons.1 he
    have hnew : ∀ a ∈ acts fs, a.field ≠ r.storedName e.1 := fun a ha =>
      (List.nodup_append.1 hnames).2.2 _ (List.mem_map_of_mem ha) _ List.mem_cons_self
    obtain ⟨fs₁, hassign, hgrouped, hperm⟩ := assign_grouped h hfirst hnew
    have hnames₁ : ((acts fs₁).map Act.field ++ data.map fun e => r.storedName e.1).Nodup := by
      rw [((hperm.map Act.field).append_right _).nodup_iff, List.map_append, List.append_assoc, List.map_singleton,
        field_act]
      exact hnames
    obtain ⟨fs₂, hall, hgrouped₂, hperm₂⟩ := assignAll_grouped hgrouped hrest hnames₁
    refine ⟨fs₂, ?_, hgrouped₂, hperm₂.trans ?_⟩
    · rw [assignAll, hassign]
      exact hall
    · rw [List.map_cons]
      have happended := hperm.append_right (data.map r.act)
      rw [List.append_assoc] at happended
      exact happended

/-- Data that name top-level fields other than the identifier, each of them once, and assign them values or carry one
of the update operators. -/
structure NamesFields (r : KeyRule) (data : Keyed String Assignment) : Prop where
  ordinary : ∀ e ∈ data, IsOrdinary e
  distinct : (data.map fun e => r.storedName e.1).Nodup
  undotted : ∀ e ∈ data, Text.hasChar '.' (r.storedName e.1) = false
  besideId : ∀ e ∈ data, r.storedName e.1 ≠ "_id"

/-- **Data on fields of their own compile to one step for each field.** -/
theorem change_acts {r : KeyRule} {data : Keyed String Assignment} (h : r.NamesFields data) :
    ∃ change, r.change data = .ok change ∧ Grouped change ∧ (acts change).Perm (data.map r.act) ∧
      Act.Separate (acts change) := by
  obtain ⟨change, hchange, hgrouped, hperm⟩ := assignAll_grouped (r := r) .nil h.ordinary h.distinct
  have hperm : (acts change).Perm (data.map r.act) := hperm
  refine ⟨change, hchange, hgrouped, hperm, Act.Separate.perm ⟨?_, fun a ha => ?_⟩ hperm.symm⟩
  · rw [List.map_map]
    exact (congrArg List.Nodup (List.map_congr_left fun e _ => (field_act r e).symm)).mp h.distinct
  · obtain ⟨e, he, rfl⟩ := List.mem_map.1 ha
    rw [field_act]
    exact h.undotted e he

theorem apply_grouped {change : Fields} (h : Grouped change) {doc new : Value} {changed : Bool} :
    Change.apply (.obj change) doc = (new, .ok changed) ↔
      Change.runSteps ((acts change).map Act.step) doc = (new, none) ∧ changed = (new != doc) := by
  have hops : Change.isOperators change = true := List.all_eq_true.2 h.operators
  rw [Change.apply, if_pos hops, Change.run_eq, Change.steps_eq_acts h.groups]
  rcases Change.runSteps ((acts change).map Act.step) doc with ⟨new', _ | e⟩
  · simp only [Prod.mk.injEq, Except.ok.injEq, and_true]
    constructor
    · rintro ⟨rfl, rfl⟩
      exact ⟨rfl, rfl⟩
    · rintro ⟨rfl, rfl⟩
      exact ⟨rfl, rfl⟩
  · simp

/-- **An update changes exactly the named fields.**  It succeeds just if every named field allows its operator; then
fields that are not named are as they were, and each named field is what its operator makes of it: the value, nothing,
or the sum with the step.  The flag tells whether some field differs. -/
theorem update_of_named_fields (r : KeyRule) {data : Keyed String Assignment} (h : r.NamesFields data) {fs : Fields}
    (hk : (Keyed.keys fs).Nodup) :
    ∃ change, r.change data = .ok change ∧
      ((∃ new changed, Change.apply (.obj change) (.obj fs) = (new, .ok changed)) ↔
        ∀ e ∈ data, ((r.act e).outcome? fs).isSome = true) ∧
      ∀ new changed, Change.apply (.obj change) (.obj fs) = (new, .ok changed) → ∃ gs, new = .obj gs ∧
        (∀ key, (∀ e ∈ data, r.storedName e.1 ≠ key) → Keyed.get? gs key = Keyed.get? fs key) ∧
        (∀ e ∈ data, (r.act e).outcome? fs = some (Keyed.get? gs (r.storedName e.1))) ∧
        (∀ field v, (field, .plain v) ∈ data → Keyed.get? gs (r.storedName field) = some v) ∧
        (∀ field v, (field, .operator "$unset" v) ∈ data → Keyed.get? gs (r.storedName field) = none) ∧
        (∀ field step, (field, .operator "$inc" step) ∈ data →
          (Keyed.get? fs (r.storedName field) = none → Keyed.get? gs (r.storedName field) = some step) ∧
          ∀ old m n, Keyed.get? fs (r.storedName field) = some old → old.signed? = some m → step.signed? = some n →
            (Value.int (m + n)).signed? = some (m + n) →
            Keyed.get? gs (r.storedName field) = some (.int (m + n))) ∧
        (changed = true ↔ ∃ key, (Keyed.get? gs key == Keyed.get? fs key) = false) := by
  obtain ⟨change, hchange, hgrouped, hperm, hseparate⟩ := change_acts h
  obtain ⟨hiff, hmade⟩ := Act.run_separate hseparate hk
  have hmem : ∀ {e}, e ∈ data → r.act e ∈ acts change := fun he => hperm.mem_iff.2 (List.mem_map_of_mem he)
  refine ⟨change, hchange, ?_, fun new changed happly => ?_⟩
  · simp only [apply_grouped hgrouped, exists_and_left, exists_eq, and_true, hiff]
    exact ⟨fun hall e he => hall _ (hmem he), fun hall a ha => by
      obtain ⟨e, he, rfl⟩ := List.mem_map.1 (hperm.mem_iff.1 ha)
      exact hall e he⟩
  · obtain ⟨hrun, rfl⟩ := (apply_grouped hgrouped).1 happly
    obtain ⟨gs, rfl, hgs⟩ := hmade new hrun
    have hnamed : ∀ e ∈ data, (r.act e).outcome? fs = some (Keyed.get? gs (r.storedName e.1)) := fun e he => by
      rw [← field_act]
      exact hgs.named _ (hmem he)
    refine ⟨gs, rfl, fun key hkey => hgs.others key fun a ha => ?_, hnamed, fun field v he => ?_,
      fun field v he => ?_, fun field step he => ⟨fun hnone => ?_, fun old m n hold hm hn hfits => ?_⟩, ?_⟩
    · obtain ⟨e, he, rfl⟩ := List.mem_map.1 (hperm.mem_iff.1 ha)
      rw [field_act]
      exact hkey e he
    · have hvalue := hnamed _ he
      have hstored : r.storedValue (r.storedName field) v = v := if_neg fun hid => h.besideId _ he hid.1
      rw [act, hstored] at hvalue
      exact (Option.some.inj hvalue).symm
    · exact (Option.some.inj (hnamed _ he)).symm
    · have hvalue := hnamed _ he
      rw [Act.outcome?, act, hnone] at hvalue
      exact (Option.some.inj hvalue).symm
    · have hvalue := hnamed _ he
      rw [Act.outcome?, act, hold] at hvalue
      simp only [Change.outcome?, Change.add?, hm, hn, Value.wrapped_of_signed? hfits] at hvalue
      exact (Option.some.inj hvalue).symm
    · have hbeq := Value.beq_obj_iff_get? hgs.nodup hk
      simp only [← Bool.not_eq_true]
      rw [← not_forall, ← hbeq, Bool.not_eq_true]
      exact iff_of_eq (Bool.not_eq_true' _)

def promotion : Keyed String Assignment :=
  [("name", .plain (.str "Ann")), ("score", .operator "$inc" (.int 5)), ("draft", .operator "$unset" (.str "")),
    ("tags", .operator "$push" (.str "new"))]

def trainee : Fields := [("_id", .int 1), ("score", .int 2), ("draft", .bool true), ("kept", .str "x")]

theorem namesFields_promotion : (KeyRule.mk true .native).NamesFields promotion := by
  have hnames : promotion.map (fun e => (KeyRule.mk true .native).storedName e.1) =
      ["name", "score", "draft", "tags"] := by decide
  have hmem : ∀ e ∈ promotion, (KeyRule.mk true .native).storedName e.1 ∈ ["name", "score", "draft", "tags"] :=
    fun e he => hnames ▸ List.mem_map_of_mem he
  have hundotted : ∀ name ∈ ["name", "score", "draft", "tags"], Text.hasChar '.' name = false ∧ name ≠ "_id" := by
    decide
  refine ⟨?_, hnames ▸ by decide, fun e he => (hundotted _ (hmem e he)).1, fun e he => (hundotted _ (hmem e he)).2⟩
  simp only [promotion, List.forall_mem_cons]
  refine ⟨⟨by decide, fun op v h => ?_⟩, ⟨by decide, fun op v h => ?_⟩, ⟨by decide, fun op v h => ?_⟩,
    ⟨by decide, fun op v h => ?_⟩, fun _ he => (by cases he)⟩
  all_goals cases h
  all_goals decide

theorem update_of_named_fields_promotion : (KeyRule.mk true .native).NamesFields promotion ∧
    (Keyed.keys trainee).Nodup ∧ ∃ change gs, (KeyRule.mk true .native).change promotion = .ok change ∧
      Change.apply (.obj change) (.obj trainee) = (.obj gs, .ok true) ∧
      Keyed.get? gs "name" = some (.str "Ann") ∧ Keyed.get? gs "score" = some (.int 7) ∧
      Keyed.get? gs "draft" = none ∧ Keyed.get? gs "tags" = some (.arr [.str "new"]) ∧
      Keyed.get? gs "kept" = some (.str "x") := by
  have hkeys : (Keyed.keys trainee).Nodup := by decide
  have houtcomes : ∀ e ∈ promotion, (((KeyRule.mk true .native).act e).outcome? trainee).isSome = true := by
    simp only [promotion, List.forall_mem_cons]
    exact ⟨rfl, rfl, rfl, rfl, fun _ he => by cases he⟩
  obtain ⟨change, hchange, hiff, hmade⟩ := update_of_named_fields _ namesFields_promotion hkeys
  obtain ⟨new, changed, happly⟩ := hiff.2 houtcomes
  obtain ⟨gs, rfl, hothers, hnamed, hplain, hunset, hinc, hchanged⟩ := hmade new changed happly
  have hdraft : Keyed.get? gs "draft" = none := hunset "draft" (.str "") (by simp [promotion])
  have htags := hnamed ("tags", .operator "$push" (.str "new")) (by simp [promotion])
  obtain rfl : changed = true := hchanged.2 ⟨"draft", by rw [hdraft]; rfl⟩
  refine ⟨namesFields_promotion, hkeys, change, gs, hchange, happly, hplain "name" _ (by simp [promotion]), ?_, hdraft,
    (Option.some.inj htags).symm, hothers "kept" ?_⟩
  · exact (hinc "score" (.int 5) (by simp [promotion])).2 (.int 2) 2 5 rfl rfl rfl rfl
  · simp only [promotion, List.forall_mem_cons]
    exact ⟨by decide, by decide, by decide, by decide, fun _ he => by cases he⟩

end KeyRule

end DocQuery
