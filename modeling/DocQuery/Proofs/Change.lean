import DocQuery.Proofs.Equality
import DocQuery.Proofs.Paths
import DocQuery.Store.Write

/-!
# What changes leave alone

Every operator sets the value at its path, removes it, or edits the items there; so a change is a sequence of such edits
at its paths (`Change.edited_run`).  Edits keep values well-formed, and those at paths that do not begin at the
identifier keep the identifier.
-/
namespace DocQuery

namespace Value

variable {v w : Value} {fs : Fields}

/-! ## Well-formed parts -/

theorem WellFormed.field? (hv : v.WellFormed) {key : String} (h : v.field? key = some w) : w.WellFormed := by
  cases hv with
  | obj _ hfields => exact hfields _ (Keyed.mem_of_get? h)
  | _ => cases h

theorem WellFormed.items {xs : List Value} (h : (Value.arr xs).WellFormed) : ∀ x ∈ xs, x.WellFormed := by
  cases h with
  | arr items => exact items

theorem WellFormed.single {key : String} (hv : v.WellFormed) : (Value.single key v).WellFormed := by
  refine .obj (by simp [Keyed.keys]) fun e he => ?_
  rw [List.mem_singleton.1 he]
  exact hv

theorem WellFormed.fieldsOrEmpty (hv : v.WellFormed) : (Value.obj v.fieldsOrEmpty).WellFormed := by
  cases hv with
  | obj hk hfields => exact .obj hk hfields
  | _ => exact .obj List.nodup_nil fun _ he => by cases he

theorem WellFormed.set (hv : (Value.obj fs).WellFormed) (key : String) (hw : w.WellFormed) :
    (Value.obj (Keyed.set fs key w)).WellFormed := by
  cases hv with
  | obj hk hfields =>
    refine .obj (Keyed.nodup_keys_set hk key w) fun e he => ?_
    rcases Keyed.mem_set he with rfl | he
    · exact hw
    · exact hfields e he

theorem WellFormed.setAll : ∀ {es fs : Fields}, (Value.obj fs).WellFormed → (∀ e ∈ es, e.2.WellFormed) →
    (Value.obj (Keyed.setAll fs es)).WellFormed
  | [], _, hfs, _ => hfs
  | e :: es, fs, hfs, hes => by
    obtain ⟨he, hes⟩ := List.forall_mem_cons.1 hes
    rw [Keyed.setAll, List.foldl_cons]
    exact setAll (hfs.set e.1 he) hes

theorem WellFormed.swapErase (hv : (Value.obj fs).WellFormed) (key : String) :
    (Value.obj (Keyed.swapErase fs key)).WellFormed := by
  cases hv with
  | obj hk hfields =>
    refine .obj (Keyed.nodup_keys_swapErase hk key) fun e he => hfields e ?_
    exact (Keyed.erase_sublist fs key).subset ((Keyed.swapErase_perm fs key).mem_iff.1 he)

theorem WellFormed.throughObjects? : ∀ {segments : List String} {v w : Value}, v.WellFormed →
    v.throughObjects? segments = some w → w.WellFormed
  | [], v, w, hv, h => Option.some.inj h ▸ hv
  | segment :: rest, v, w, hv, h => by
    obtain ⟨u, hu, hrest⟩ := Option.bind_eq_some_iff.1 h
    exact (hv.field? hu).throughObjects? hrest

theorem WellFormed.step? (hv : v.WellFormed) {segment : String} (h : v.step? segment = some w) : w.WellFormed := by
  cases v with
  | obj fs => exact hv.field? h
  | arr xs =>
    obtain ⟨i, -, hi⟩ := Option.bind_eq_some_iff.1 h
    exact hv.items w (List.mem_of_getElem? hi)
  | _ => cases h

theorem WellFormed.at? : ∀ {segments : List String} {v w : Value}, v.WellFormed → v.at? segments = some w → w.WellFormed
  | [], _, _, hv, h => Option.some.inj h ▸ hv
  | segment :: rest, v, w, hv, h => by
    rw [Value.at?] at h
    obtain ⟨u, hu, hrest⟩ := Option.bind_eq_some_iff.1 h
    exact (hv.step? hu).at? hrest

theorem WellFormed.path? (hv : v.WellFormed) {path : String} (h : v.path? path = some w) : w.WellFormed := hv.at? h

theorem WellFormed.setAt : ∀ (segments : List String) {v w : Value}, v.WellFormed → w.WellFormed →
    (v.setAt segments w).WellFormed
  | [], _, _, _, hw => hw
  | segment :: rest, v, w, hv, hw => by
    rw [Value.setAt]
    refine hv.fieldsOrEmpty.set segment (WellFormed.setAt rest ?_ hw)
    cases h : Keyed.get? v.fieldsOrEmpty segment with
    | none => exact .obj List.nodup_nil fun _ he => by cases he
    | some u => exact hv.fieldsOrEmpty.field? h

theorem WellFormed.modifyAt {f : Value → Value} (hf : ∀ {u : Value}, u.WellFormed → (f u).WellFormed) :
    ∀ (segments : List String) {v : Value}, v.WellFormed → (v.modifyAt f segments).WellFormed
  | [], _, hv => hf hv
  | segment :: rest, v, hv => by
    cases v with
    | obj fs =>
      rw [Value.modifyAt]
      cases h : Keyed.get? fs segment with
      | none => exact hv
      | some u => exact hv.set segment (WellFormed.modifyAt hf rest (hv.field? h))
    | _ => exact hv

theorem WellFormed.removePath (hv : v.WellFormed) (path : String) : (v.removePath path).WellFormed := by
  refine WellFormed.modifyAt (fun {u} hu => ?_) _ hv
  cases u with
  | obj fs => exact hu.swapErase _
  | _ => exact hu

/-! ## The identifier -/

def TouchesId (path : String) : Prop := (Path.ofText path).head? = some "_id"

theorem field?_setAt {segment key : String} (rest : List String) (hne : segment ≠ key) :
    (v.setAt (segment :: rest) w).field? key = v.field? key := by
  refine (Keyed.get?_set_ne _ _ hne).trans ?_
  cases v <;> rfl

theorem field?_modifyAt {f : Value → Value} {segment key : String} (rest : List String) (hne : segment ≠ key) :
    (v.modifyAt f (segment :: rest)).field? key = v.field? key := by
  cases v with
  | obj fs =>
    rw [modifyAt]
    cases Keyed.get? fs segment with
    | none => rfl
    | some u => exact Keyed.get?_set_ne _ _ hne
  | _ => rfl

theorem field?_dropField (hv : v.WellFormed) {segment key : String} (hne : segment ≠ key) :
    (dropField segment v).field? key = v.field? key := by
  cases hv with
  | obj hk _ => exact (Keyed.get?_swapErase hk segment key).trans (if_neg hne)
  | _ => rfl

end Value

namespace Change

/-- A document comes out of another by edits at some paths: values are set or removed there, or items are put there. -/
inductive Edited (at_ : String → Prop) (d : Value) : Value → Prop
  | refl : Edited at_ d d
  | set {d' v : Value} {path : String} (h : Edited at_ d d') (hp : at_ path) (hv : v.WellFormed) :
      Edited at_ d (d'.setPath path v)
  | remove {d' : Value} {path : String} (h : Edited at_ d d') (hp : at_ path) : Edited at_ d (d'.removePath path)
  | items {d' : Value} {path : String} {xs : List Value} (h : Edited at_ d d') (hp : at_ path)
      (hxs : ∀ x ∈ xs, x.WellFormed) : Edited at_ d (setItems d' path xs)

namespace Edited

variable {paths : String → Prop} {d d' : Value}

theorem wellFormed (h : Edited paths d d') (hd : d.WellFormed) : d'.WellFormed := by
  induction h with
  | refl => exact hd
  | set _ _ hv ih => exact ih.setAt _ hv
  | remove _ _ ih => exact ih.removePath _
  | items _ _ hxs ih => exact Value.WellFormed.modifyAt (fun _ => .arr hxs) _ ih

/-- **Edits beside the identifier keep it.** -/
theorem field?_id (h : Edited paths d d') (hd : d.WellFormed) (hpaths : ∀ path, paths path → ¬ Value.TouchesId path) :
    d'.field? "_id" = d.field? "_id" := by
  have hbeside : ∀ {path}, paths path → ∃ segment rest, Path.ofText path = segment :: rest ∧ segment ≠ "_id" := by
    intro path hp
    obtain ⟨segment, rest, hpath⟩ := Value.ofText_eq_cons path
    refine ⟨segment, rest, hpath, fun heq => hpaths path hp ?_⟩
    rw [Value.TouchesId, hpath, heq]
    rfl
  induction h with
  | refl => rfl
  | set _ hp _ ih =>
    obtain ⟨segment, rest, hpath, hne⟩ := hbeside hp
    rw [Value.setPath, hpath, Value.field?_setAt rest hne]
    exact ih
  | remove h hp ih =>
    obtain ⟨segment, rest, hpath, hne⟩ := hbeside hp
    rw [Value.removePath, hpath]
    cases rest with
    | nil => exact (Value.field?_dropField (h.wellFormed hd) hne).trans ih
    | cons next rest => exact (Value.field?_modifyAt _ hne).trans ih
  | items _ hp _ ih =>
    obtain ⟨segment, rest, hpath, hne⟩ := hbeside hp
    rw [setItems, hpath, Value.field?_modifyAt rest hne]
    exact ih

end Edited

/-! ## Operators are edits -/

section

variable {paths : String → Prop} {d doc operand : Value} {path : String}

theorem edited_withTarget (h : Edited paths d doc) (hp : paths path) : Edited paths d (withTarget doc path) := by
  unfold withTarget
  split
  · exact h.set hp (.arr fun _ hx => by cases hx)
  · exact h

theorem wellFormed_target? (hd : doc.WellFormed) {xs : List Value} (h : target? doc path = some xs) :
    ∀ x ∈ xs, x.WellFormed := by
  obtain ⟨v, hv, hitems⟩ := Option.bind_eq_some_iff.1 h
  have hwf := hd.throughObjects? hv
  cases v with
  | arr ys => exact Option.some.inj hitems ▸ hwf.items
  | _ => cases hitems

theorem edited_editArray {op : String} {edit : List Value → List Value} {new : Value} (hd : d.WellFormed)
    (h : Edited paths d doc) (hp : paths path)
    (hedit : ∀ xs : List Value, (∀ x ∈ xs, x.WellFormed) → ∀ x ∈ edit xs, x.WellFormed)
    (hnew : editArray op path doc edit = .ok new) : Edited paths d new := by
  have htarget := edited_withTarget h hp
  unfold editArray at hnew
  simp only at hnew
  split at hnew
  · rename_i xs hxs
    cases hnew
    exact htarget.items hp (hedit xs (wellFormed_target? (htarget.wellFormed hd) hxs))
  · cases hnew

theorem edited_shrinkArray {edit : List Value → List Value} (hd : d.WellFormed) (h : Edited paths d doc)
    (hp : paths path) (hedit : ∀ xs : List Value, ∀ x ∈ edit xs, x ∈ xs) :
    Edited paths d (shrinkArray path doc edit) := by
  have htarget := edited_withTarget h hp
  unfold shrinkArray
  simp only
  split
  · rename_i xs hxs
    exact htarget.items hp fun x hx => wellFormed_target? (htarget.wellFormed hd) hxs x (hedit xs x hx)
  · exact htarget

theorem wellFormed_addends (ho : operand.WellFormed) : ∀ x ∈ addends operand, x.WellFormed := by
  rcases addends_eq_iff.1 rfl with heach | ⟨-, hself⟩
  · exact (ho.field? heach).items
  · rw [hself]
    exact fun x hx => List.mem_singleton.1 hx ▸ ho

theorem wellFormed_listOperand (ho : operand.WellFormed) : ∀ x ∈ listOperand operand, x.WellFormed := by
  unfold listOperand
  cases ho with
  | arr items => exact items
  | _ => exact fun _ hx => by cases hx

theorem mem_addNew : ∀ {values xs : List Value} {x : Value}, x ∈ addNew xs values → x ∈ xs ∨ x ∈ values
  | [], xs, x, h => .inl h
  | v :: values, xs, x, h => by
    rw [addNew] at h
    rcases mem_addNew h with hx | hx
    · split at hx
      · exact .inl hx
      · rcases List.mem_append.1 hx with hx | hx
        · exact .inl hx
        · exact .inr (List.mem_singleton.1 hx ▸ List.mem_cons_self)
    · exact .inr (List.mem_cons_of_mem _ hx)

theorem wellFormed_ofFloat (x : Float) : (Value.ofFloat x).WellFormed := by
  unfold Value.ofFloat
  split
  · rename_i hfinite
    exact .float hfinite
  · exact .null

theorem wellFormed_add? {a b sum : Value} (h : add? a b = some sum) : sum.WellFormed := by
  unfold add? at h
  split at h
  · exact Option.some.inj h ▸ .int _
  · split at h
    · exact Option.some.inj h ▸ wellFormed_ofFloat _
    · cases h

theorem edited_increment {new : Value} (ho : operand.WellFormed) (h : Edited paths d doc) (hp : paths path)
    (hnew : increment doc path operand = .ok new) : Edited paths d new := by
  unfold increment at hnew
  split at hnew
  · cases hnew
    exact h.set hp ho
  · split at hnew
    · rename_i sum hsum
      cases hnew
      exact h.set hp (wellFormed_add? hsum)
    · cases hnew

/-- **Every operator is an edit at its path.** -/
theorem edited_operate {op : String} {new : Value} (hd : d.WellFormed) (ho : operand.WellFormed)
    (h : Edited paths d doc) (hp : paths path) (hnew : operate op path operand doc = .ok new) : Edited paths d new := by
  have hpush : ∀ ys : List Value, (∀ y ∈ ys, y.WellFormed) → ∀ xs : List Value, (∀ x ∈ xs, x.WellFormed) →
      ∀ x ∈ xs ++ ys, x.WellFormed := fun ys hys xs hxs x hx => by
    rcases List.mem_append.1 hx with hx | hx
    · exact hxs x hx
    · exact hys x hx
  unfold operate at hnew
  split at hnew
  · cases hnew
    exact h.set hp ho
  · cases hnew
    exact h.remove hp
  · exact edited_increment ho h hp hnew
  · exact edited_editArray hd h hp (hpush _ (wellFormed_addends ho)) hnew
  · exact edited_editArray hd h hp (hpush _ (wellFormed_listOperand ho)) hnew
  · refine edited_editArray hd h hp (fun xs hxs x hx => ?_) hnew
    rcases mem_addNew hx with hx | hx
    · exact hxs x hx
    · exact wellFormed_addends ho x hx
  · cases hnew
    refine edited_shrinkArray hd h hp fun xs x hx => ?_
    split at hx
    · exact List.mem_of_mem_drop hx
    · exact (List.dropLast_sublist xs).subset hx
  · cases hnew
    exact edited_shrinkArray hd h hp fun xs x hx => (List.mem_filter.1 hx).1
  · cases hnew
    exact edited_shrinkArray hd h hp fun xs x hx => (List.mem_filter.1 hx).1
  · cases hnew

def ActsOn (fs : Fields) (path : String) : Prop :=
  ∃ op fields operand, (op, Value.obj fields) ∈ fs ∧ (path, operand) ∈ fields

theorem edited_operateAll {op : String} (hd : d.WellFormed) : ∀ {entries : List (String × Value)} {doc : Value},
    (∀ e ∈ entries, paths e.1 ∧ e.2.WellFormed) → Edited paths d doc → Edited paths d (operateAll op entries doc).1
  | [], _, _, h => h
  | (path, operand) :: entries, doc, he, h => by
    obtain ⟨⟨hp, ho⟩, he⟩ := List.forall_mem_cons.1 he
    rw [operateAll]
    split
    · rename_i new hnew
      exact edited_operateAll hd he (edited_operate hd ho h hp hnew)
    · exact h

theorem edited_run (hd : d.WellFormed) : ∀ {fs : List (String × Value)} {doc : Value},
    (∀ e ∈ fs, e.2.WellFormed) → (∀ path, ActsOn fs path → paths path) → Edited paths d doc →
    Edited paths d (run fs doc).1
  | [], _, _, _, h => h
  | (op, v) :: fs, doc, hfs, hp, h => by
    have hv : v.WellFormed := hfs (op, v) List.mem_cons_self
    have hrest : ∀ path, ActsOn fs path → paths path := fun path hpath => by
      obtain ⟨op', fields, operand, hmem, hentry⟩ := hpath
      exact hp path ⟨op', fields, operand, List.mem_cons_of_mem _ hmem, hentry⟩
    cases v with
    | obj fields =>
      have hfields : ∀ e ∈ fields, paths e.1 ∧ e.2.WellFormed := fun e he => by
        cases hv with
        | obj _ hwf => exact ⟨hp e.1 ⟨op, fields, e.2, List.mem_cons_self, he⟩, hwf e he⟩
      have hone : Edited paths d (operateAll op fields doc).1 := edited_operateAll hd hfields h
      rw [run]
      split
      · rename_i new hnew
        rw [hnew] at hone
        exact edited_run hd (fun e he => hfs e (List.mem_cons_of_mem _ he)) hrest hone
      · rename_i new f hnew
        rw [hnew] at hone
        exact hone
    | _ => exact h

end

/-! ## Whole changes -/

theorem apply_cases {change doc : Value} (hc : change.WellFormed) (hd : doc.WellFormed) :
    (apply change doc).1 = doc ∨
    ∃ fs, change = .obj fs ∧
      (isOperators fs = true ∧ Edited (ActsOn fs) doc (apply change doc).1 ∨
        isOperators fs = false ∧ (apply change doc).1 = replacement doc fs) := by
  cases change with
  | obj fs =>
    refine .inr ⟨fs, rfl, ?_⟩
    rw [apply]
    by_cases hops : isOperators fs = true
    · rw [if_pos hops]
      have hwf : ∀ e ∈ fs, e.2.WellFormed := by
        cases hc with
        | obj _ hwf => exact hwf
      have hrun : Edited (ActsOn fs) doc (run fs doc).1 := edited_run hd hwf (fun _ h => h) .refl
      refine .inl ⟨hops, ?_⟩
      split
      · rename_i new hnew
        rwa [hnew] at hrun
      · rename_i new f hnew
        rwa [hnew] at hrun
    · rw [if_neg hops]
      exact .inr ⟨by simpa using hops, rfl⟩
  | _ => exact .inl rfl

theorem wellFormed_replacement {doc : Value} {fs : Fields} (hc : (Value.obj fs).WellFormed) (hd : doc.WellFormed) :
    (replacement doc fs).WellFormed := by
  unfold replacement
  split
  · rename_i id hid
    exact hc.set "_id" (hd.field? hid)
  · exact hc

theorem field?_id_replacement {doc id : Value} (h : doc.field? "_id" = some id) (fs : Fields) :
    (replacement doc fs).field? "_id" = some id := by
  rw [replacement, h]
  exact Keyed.get?_set_self fs "_id" id

theorem wellFormed_apply {change doc : Value} (hc : change.WellFormed) (hd : doc.WellFormed) :
    (apply change doc).1.WellFormed := by
  rcases apply_cases hc hd with h | ⟨fs, rfl, ⟨-, h⟩ | ⟨-, h⟩⟩
  · rw [h]
    exact hd
  · exact h.wellFormed hd
  · rw [h]
    exact wellFormed_replacement hc hd

def SparesId (change : Value) : Prop :=
  ∀ fs, change = .obj fs → isOperators fs = true → ∀ path, ActsOn fs path → ¬ Value.TouchesId path

/-- **A change whose operators spare the identifier keeps it**, and so does another document in the place. -/
theorem field?_id_apply {change doc id : Value} (hc : change.WellFormed) (hd : doc.WellFormed)
    (h : doc.field? "_id" = some id) (hspares : SparesId change) : (apply change doc).1.field? "_id" = some id := by
  rcases apply_cases hc hd with hsame | ⟨fs, rfl, ⟨hops, hedited⟩ | ⟨-, hnew⟩⟩
  · rw [hsame, h]
  · rw [hedited.field?_id hd (hspares fs rfl hops), h]
  · rw [hnew, field?_id_replacement h]

end Change

/-! ## What an upsert starts from -/

namespace Write

open Change (Edited)

def anywhere (_path : String) : Prop := True

def seedField (acc : Value) (key : String) (v : Value) : Value :=
  if key = "$and" then
    match v with
    | .arr branches => seedBranches acc branches
    | _ => acc
  else if Text.startsWith key "$" then acc
  else match v with
    | .obj ops =>
      if Change.isOperators ops && !Keyed.has ops ObjectId.fieldKey then
        match Keyed.get? ops "$eq" with
        | some v => acc.setPath key v
        | none => acc
      else acc.setPath key (.obj ops)
    | v => acc.setPath key v

theorem seedFields_cons (acc : Value) (key : String) (v : Value) (fs : List (String × Value)) :
    seedFields acc ((key, v) :: fs) = seedFields (seedField acc key v) fs := by
  cases v <;> rfl

mutual

theorem edited_seed {d : Value} : ∀ (filter : Value) {acc : Value}, filter.WellFormed → Edited anywhere d acc →
    Edited anywhere d (seed acc filter)
  | .obj fs, _, hf, h => by
    rw [seed]
    exact edited_seedFields fs (fun e he => by cases hf with | obj _ hwf => exact hwf e he) h
  | .null, _, _, h | .bool _, _, _, h | .int _, _, _, h | .float _, _, _, h | .str _, _, _, h | .arr _, _, _, h => h

theorem edited_seedFields {d : Value} : ∀ (fs : List (String × Value)) {acc : Value}, (∀ e ∈ fs, e.2.WellFormed) →
    Edited anywhere d acc → Edited anywhere d (seedFields acc fs)
  | [], _, _, h => h
  | (key, v) :: fs, acc, hfs, h => by
    have hv : v.WellFormed := hfs (key, v) List.mem_cons_self
    have hset : ∀ {w : Value}, w.WellFormed → Edited anywhere d (acc.setPath key w) := fun hw => h.set trivial hw
    rw [seedFields_cons]
    refine edited_seedFields fs (fun e he => hfs e (List.mem_cons_of_mem _ he)) ?_
    unfold seedField
    split
    · cases v with
      | arr branches => exact edited_seedBranches branches hv.items h
      | _ => exact h
    · split
      · exact h
      · split
        · split
          · split
            · rename_i w hw
              exact hset (hv.field? hw)
            · exact h
          · exact hset hv
        · exact hset hv

theorem edited_seedBranches {d : Value} : ∀ (bs : List Value) {acc : Value}, (∀ b ∈ bs, b.WellFormed) →
    Edited anywhere d acc → Edited anywhere d (seedBranches acc bs)
  | [], _, _, h => h
  | b :: bs, _, hbs, h => by
    rw [seedBranches]
    exact edited_seedBranches bs (fun x hx => hbs x (List.mem_cons_of_mem _ hx))
      (edited_seed b (hbs b List.mem_cons_self) h)

end

end Write

end DocQuery
