import DocQuery.Proofs.NamedFields

/-!
# What an update keeps of its data

Every entry of the data files operands under operators.  Plain values and operators file one beside what is there, but
an entry that is an operator itself brings a whole group and puts it in the place of the one there.  What ends up under
an operator for a field is what the entries make of it one after the other (`filedAt_change`); so an entry is kept just
if no whole group comes behind it (`update_keeps_entry_iff`).
-/
namespace DocQuery.KeyRule

open Change (Act Grouped)

def group? : String × Assignment → Option Fields
  | (key, .plain (.obj fields)) => if Text.startsWith key "$" = true then some fields else none
  | _ => none

/-- What an entry files: the fields of the group that it brings, or else one field. -/
def files (r : KeyRule) (e : String × Assignment) : List Act :=
  match group? e with
  | some fields => fields.map fun x => ⟨e.1, x.1, x.2⟩
  | none => [r.act e]

/-- What an entry makes of the operand of a field under an operator. -/
def refile (r : KeyRule) (op field : String) (old : Option Value) (e : String × Assignment) : Option Value :=
  match group? e with
  | some fields => if e.1 = op then Keyed.get? fields field else old
  | none => if (r.act e).op = op ∧ (r.act e).field = field then some (r.act e).operand else old

/-- An entry puts its group in the place of what is under an operator. -/
def Replaces (op : String) (e : String × Assignment) : Prop := e.1 = op ∧ (group? e).isSome = true

/-- A plain value, an operator that updates may carry, or a group of fields under an operator. -/
inductive IsEntry : String × Assignment → Prop
  | plain {field : String} (v : Value) (h : Text.startsWith field "$" = false) : IsEntry (field, .plain v)
  | group {op : String} {fields : Fields} (h : Text.startsWith op "$" = true) (hfields : (Keyed.keys fields).Nodup) :
      IsEntry (op, .plain (.obj fields))
  | operator (field : String) {op : String} (v : Value) (hop : op ∈ updateOperators) : IsEntry (field, .operator op v)

def filedAt (change : Fields) (op field : String) : Option Value := (Keyed.get? change op).bind (·.field? field)

theorem filedAt_set (change : Fields) (op : String) (fields : Fields) (op' field : String) :
    filedAt (Keyed.set change op (.obj fields)) op' field =
      if op = op' then Keyed.get? fields field else filedAt change op' field := by
  rw [filedAt, Keyed.get?_set]
  split
  · rfl
  · rfl

theorem filedAt_putUnder {change : Fields} (h : Grouped change) (op key : String) (v : Value) (op' field : String) :
    filedAt (putUnder change op key v) op' field =
      if op = op' ∧ key = field then some v else filedAt change op' field := by
  unfold putUnder
  cases hget : Keyed.get? change op with
  | none =>
    simp only
    rw [filedAt_set, Keyed.get?_cons, Keyed.get?_nil]
    by_cases hop : op = op'
    · subst hop
      simp [filedAt, hget]
    · simp [hop]
  | some w =>
    obtain ⟨fields, rfl⟩ := h.groups _ (Keyed.mem_of_get? hget)
    simp only
    rw [filedAt_set, Keyed.get?_set]
    by_cases hop : op = op'
    · subst hop
      simp [filedAt, hget, Value.field?, Value.fields?]
    · simp [hop]

theorem grouped_putUnder {change : Fields} (h : Grouped change) {op : String} (hop : Text.startsWith op "$" = true)
    (key : String) (v : Value) : Grouped (putUnder change op key v) := by
  unfold putUnder
  split
  · exact h.set hop _
  · exact h.set hop _
  · exact h

/-! ## One entry -/

variable {r : KeyRule} {e : String × Assignment} {op field : String}

theorem group?_plain {v : Value} (h : Text.startsWith field "$" = false) : group? (field, .plain v) = none := by
  cases v with
  | obj fields => simp [group?, h]
  | _ => rfl

/-- **An entry is filed beside what is there, or in the place of a whole group.** -/
theorem assign_entry {change : Fields} (h : Grouped change) (he : IsEntry e) : ∃ change',
    r.assign change e.1 e.2 = .ok change' ∧ Grouped change' ∧
    ∀ op field, filedAt change' op field = r.refile op field (filedAt change op field) e := by
  cases he with
  | @plain field v hfield =>
    have hset := dollar_of_mem_updateOperators "$set" (by decide)
    refine ⟨_, ?_, grouped_putUnder h hset.1 (r.storedName field) (r.storedValue (r.storedName field) v),
      fun op field' => ?_⟩
    · rw [assign, if_neg (by rw [hfield]; exact Bool.false_ne_true)]
    · rw [filedAt_putUnder h, refile, group?_plain hfield]
      rfl
  | @group op fields hop hfields =>
    refine ⟨_, ?_, h.set hop fields, fun op' field => ?_⟩
    · rw [assign, if_pos hop]
    · rw [filedAt_set, refile, group?, if_pos hop]
  | @operator field op v hop =>
    have hdollar := dollar_of_mem_updateOperators op hop
    refine ⟨_, ?_, grouped_putUnder h hdollar.1 (r.storedName field) v, fun op' field' => ?_⟩
    · rw [assign, if_neg hdollar.2, if_pos hop]
    · rw [filedAt_putUnder h]
      rfl

theorem refile_of_files (he : IsEntry e) {a : Act} (ha : a ∈ r.files e) (old : Option Value) :
    r.refile a.op a.field old e = some a.operand := by
  rw [files] at ha
  rw [refile]
  cases hgroup : group? e with
  | none =>
    rw [hgroup] at ha
    rw [List.mem_singleton.1 ha]
    exact if_pos ⟨rfl, rfl⟩
  | some fields =>
    rw [hgroup] at ha
    obtain ⟨x, hx, rfl⟩ := List.mem_map.1 ha
    simp only [if_true]
    cases he with
    | plain v h =>
      rw [group?_plain h] at hgroup
      cases hgroup
    | @group op fields' h hfields =>
      rw [group?, if_pos h] at hgroup
      obtain rfl := Option.some.inj hgroup
      exact (Keyed.mem_iff_get? hfields).1 hx
    | operator field v hop => cases hgroup

theorem refile_of_files_none (he : ∀ a ∈ r.files e, ¬ (a.op = op ∧ a.field = field)) (old : Option Value) :
    (Replaces op e → r.refile op field old e = none) ∧ (¬ Replaces op e → r.refile op field old e = old) := by
  rw [Replaces]
  rw [files] at he
  rw [refile]
  cases hgroup : group? e with
  | none =>
    rw [hgroup] at he
    simp only
    rw [if_neg (he _ (List.mem_singleton.2 rfl))]
    exact ⟨fun h => absurd h.2 Bool.false_ne_true, fun _ => rfl⟩
  | some fields =>
    rw [hgroup] at he
    simp only [Option.isSome_some, and_true]
    refine ⟨fun hop => ?_, fun hop => if_neg hop⟩
    rw [if_pos hop, Keyed.get?_eq_none]
    exact fun x hx heq => he _ (List.mem_map_of_mem hx) ⟨hop, heq⟩

/-! ## All entries -/

/-- **What is filed is what the entries make of it, one after the other.** -/
theorem assignAll_entries : ∀ {data : List (String × Assignment)} {change : Fields}, Grouped change →
    (∀ e ∈ data, IsEntry e) → ∃ change', r.assignAll data change = .ok change' ∧
      ∀ op field, filedAt change' op field = data.foldl (r.refile op field) (filedAt change op field)
  | [], change, _, _ => ⟨change, rfl, fun _ _ => rfl⟩
  | e :: data, change, h, he => by
    obtain ⟨hfirst, hrest⟩ := List.forall_mem_cons.1 he
    obtain ⟨change₁, hassign, hgrouped, hfiled⟩ := assign_entry (r := r) h hfirst
    obtain ⟨change₂, hall, hfiled₂⟩ := assignAll_entries hgrouped hrest
    refine ⟨change₂, ?_, fun op field => ?_⟩
    · rw [assignAll, hassign]
      exact hall
    · rw [hfiled₂, hfiled, List.foldl_cons]

theorem foldl_refile_of_files_none : ∀ {data : List (String × Assignment)},
    (∀ e ∈ data, ∀ a ∈ r.files e, ¬ (a.op = op ∧ a.field = field)) → ∀ old : Option Value,
    ((∃ e ∈ data, Replaces op e) → data.foldl (r.refile op field) old = none) ∧
    ((∀ e ∈ data, ¬ Replaces op e) → data.foldl (r.refile op field) old = old)
  | [], _, old => ⟨fun ⟨_, he, _⟩ => (by cases he), fun _ => rfl⟩
  | e :: data, h, old => by
    obtain ⟨hfirst, hrest⟩ := List.forall_mem_cons.1 h
    obtain ⟨hreplaced, hleft⟩ := refile_of_files_none hfirst old
    rw [List.foldl_cons]
    by_cases hbehind : ∃ e' ∈ data, Replaces op e'
    · refine ⟨fun _ => (foldl_refile_of_files_none hrest _).1 hbehind, fun hno => ?_⟩
      obtain ⟨e', he', hreplaces⟩ := hbehind
      exact absurd hreplaces (hno e' (List.mem_cons_of_mem _ he'))
    · have hnone : ∀ e' ∈ data, ¬ Replaces op e' := fun e' he' hreplaces => hbehind ⟨e', he', hreplaces⟩
      rw [(foldl_refile_of_files_none hrest _).2 hnone]
      refine ⟨fun ⟨e', he', hreplaces⟩ => ?_, fun hno => hleft (hno e List.mem_cons_self)⟩
      rcases List.mem_cons.1 he' with rfl | he'
      · exact hreplaced hreplaces
      · exact absurd hreplaces (hnone e' he')

/-- **The operand of a field is what the entries make of it, one after the other.** -/
theorem filedAt_change (r : KeyRule) {data : List (String × Assignment)} (h : ∀ e ∈ data, IsEntry e) :
    ∃ change, r.change data = .ok change ∧ ∀ op field, filedAt change op field = data.foldl (r.refile op field) none :=
  assignAll_entries .nil h

/-- **An update keeps what an entry files just if no whole group comes behind it.**  Data of plain values, operators
and groups compile to a change, in which an operand that no entry behind files again stands where it was filed, unless
one of these entries brings a group under its operator; then nothing stands there. -/
theorem update_keeps_entry_iff (r : KeyRule) {data : List (String × Assignment)} (h : ∀ e ∈ data, IsEntry e) :
    ∃ change, r.change data = .ok change ∧
      ∀ before e behind, data = before ++ e :: behind → ∀ a ∈ r.files e,
        (∀ e' ∈ behind, ∀ a' ∈ r.files e', ¬ (a'.op = a.op ∧ a'.field = a.field)) →
        (filedAt change a.op a.field = some a.operand ↔ ∀ e' ∈ behind, ¬ Replaces a.op e') ∧
        ((∃ e' ∈ behind, Replaces a.op e') → filedAt change a.op a.field = none) := by
  obtain ⟨change, hchange, hfiled⟩ := filedAt_change r h
  refine ⟨change, hchange, fun before e behind hdata a ha hagain => ?_⟩
  have he : IsEntry e := h e (hdata ▸ List.mem_append_right _ List.mem_cons_self)
  have hlast : filedAt change a.op a.field = behind.foldl (r.refile a.op a.field) (some a.operand) := by
    rw [hfiled, hdata, List.foldl_append, List.foldl_cons, refile_of_files he ha]
  obtain ⟨hreplaced, hkept⟩ := foldl_refile_of_files_none hagain (some a.operand)
  rw [hlast]
  refine ⟨⟨fun hsome e' he' hreplaces => ?_, hkept⟩, hreplaced⟩
  rw [hreplaced ⟨e', he', hreplaces⟩] at hsome
  cases hsome

def wholeGroup : String × Assignment := ("$set", .plain (.single "b" (.int 2)))

def plainValue : String × Assignment := ("a", .plain (.int 1))

theorem isEntry_wholeGroup : IsEntry wholeGroup := .group (by decide) (by decide)

theorem isEntry_plainValue : IsEntry plainValue := .plain _ (by decide)

theorem update_keeps_entry_iff_groupFirst : (∀ e ∈ [wholeGroup, plainValue], IsEntry e) ∧
    ∃ change, (KeyRule.mk false .supplied).change [wholeGroup, plainValue] = .ok change ∧
      filedAt change "$set" "b" = some (.int 2) ∧ filedAt change "$set" "a" = some (.int 1) := by
  have hentries : ∀ e ∈ [wholeGroup, plainValue], IsEntry e :=
    List.forall_mem_cons.2 ⟨isEntry_wholeGroup, List.forall_mem_singleton.2 isEntry_plainValue⟩
  obtain ⟨change, hchange, hkept⟩ := update_keeps_entry_iff (KeyRule.mk false .supplied) hentries
  refine ⟨hentries, change, hchange, ?_, ?_⟩
  · refine (hkept [] wholeGroup [plainValue] rfl ⟨"$set", "b", .int 2⟩ List.mem_cons_self ?_).1.2 ?_
    · refine List.forall_mem_singleton.2 fun a ha => ?_
      rw [List.mem_singleton.1 ha]
      decide
    · exact List.forall_mem_singleton.2 fun hreplaces => absurd hreplaces.1 (by decide)
  · exact (hkept [wholeGroup] plainValue [] rfl ⟨"$set", "a", .int 1⟩ List.mem_cons_self
      fun _ he => by cases he).1.2 fun _ he => by cases he

/-- **A whole group takes the place of what is under its operator already.** -/
theorem group_behind_takes_entry : (∀ e ∈ [plainValue, wholeGroup], IsEntry e) ∧
    ([plainValue, wholeGroup].map fun e => (KeyRule.mk false .supplied).storedName e.1).Nodup ∧
    (KeyRule.mk false .supplied).files plainValue = [⟨"$set", "a", .int 1⟩] ∧
    (KeyRule.mk false .supplied).change [plainValue, wholeGroup] = .ok [("$set", .single "b" (.int 2))] ∧
    filedAt [("$set", .single "b" (.int 2))] "$set" "a" = none := by
  refine ⟨List.forall_mem_cons.2 ⟨isEntry_plainValue, List.forall_mem_singleton.2 isEntry_wholeGroup⟩,
    by decide, rfl, rfl, rfl⟩

end DocQuery.KeyRule
