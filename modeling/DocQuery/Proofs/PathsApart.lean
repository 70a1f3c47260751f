import DocQuery.Proofs.Change

/-!
# Paths apart

Two paths are apart if neither leads through the end of the other.  What is set, changed or removed at one of them is
not seen through objects at the other.  Reading goes through arrays too, which writing does not: changes and removals
leave what is read at paths apart (`Value.at?_modifyAt`, `Value.at?_dropAt`), but setting a value puts an object in the
place of an array on its way, and so leaves what is read just outside of that (`Value.at?_setAt`).
-/
namespace DocQuery

namespace Value

/-- Two paths part at some segment: neither leads through the end of the other. -/
def Apart : List String → List String → Prop
  | a :: p, b :: q => a ≠ b ∨ Apart p q
  | _, _ => False

theorem Apart.symm : ∀ {p q : List String}, Apart p q → Apart q p
  | _ :: _, _ :: _, .inl h => .inl h.symm
  | _ :: _, _ :: _, .inr h => .inr h.symm

theorem apart_iff : ∀ {p q : List String}, Apart p q ↔ ¬ p <+: q ∧ ¬ q <+: p
  | [], q => iff_of_false (by cases q <;> exact id) fun h => h.1 List.nil_prefix
  | a :: p, [] => iff_of_false id fun h => h.2 List.nil_prefix
  | a :: p, b :: q => by
    rw [Apart, apart_iff, List.cons_prefix_cons, List.cons_prefix_cons]
    by_cases hab : a = b
    · simp [hab]
    · simp [hab, Ne.symm hab]

theorem apart_append_iff : ∀ {before p q : List String}, Apart (before ++ p) (before ++ q) ↔ Apart p q
  | [], _, _ => Iff.rfl
  | a :: before, p, q => by
    rw [List.cons_append, List.cons_append, Apart, apart_append_iff]
    simp

/-! ## What objects lead to -/

theorem throughObjects?_setAt : ∀ {p q : List String}, Apart p q → ∀ v w : Value,
    (v.setAt p w).throughObjects? q = v.throughObjects? q
  | a :: p, b :: q, h, v, w => by
    by_cases hab : a = b
    · subst hab
      have hrest : Apart p q := h.resolve_left fun hne => hne rfl
      rw [throughObjects?_setAt_cons, throughObjects?_setAt hrest, throughObjects?, field?_eq]
      cases Keyed.get? v.fieldsOrEmpty a with
      | some u => rfl
      | none =>
        cases q with
        | nil => cases p <;> cases hrest
        | cons c q => rfl
    · rw [throughObjects?, throughObjects?, field?_setAt p hab]

theorem throughObjects?_modifyAt {f : Value → Value} : ∀ {p q : List String}, Apart p q → ∀ v : Value,
    (v.modifyAt f p).throughObjects? q = v.throughObjects? q
  | a :: p, b :: q, h, v => by
    by_cases hab : a = b
    · subst hab
      have hrest : Apart p q := h.resolve_left fun hne => hne rfl
      cases v with
      | obj fs =>
        rw [throughObjects?_modifyAt_cons, throughObjects?_obj]
        exact congrArg (Option.bind _) (funext (throughObjects?_modifyAt hrest))
      | _ => rfl
    · rw [throughObjects?, throughObjects?, field?_modifyAt p hab]

theorem throughObjects?_dropAt {key : String} : ∀ {p q : List String}, Apart (p ++ [key]) q → ∀ {v : Value},
    v.WellFormed → (v.modifyAt (dropField key) p).throughObjects? q = v.throughObjects? q
  | [], b :: q, h, v, hv => by
    have hne : key ≠ b := h.resolve_right fun hno => by cases q <;> exact hno
    rw [modifyAt, throughObjects?, throughObjects?, field?_dropField hv hne]
  | a :: p, b :: q, h, v, hv => by
    by_cases hab : a = b
    · subst hab
      have hrest : Apart (p ++ [key]) q := h.resolve_left fun hne => hne rfl
      cases v with
      | obj fs =>
        rw [throughObjects?_modifyAt_cons, throughObjects?_obj]
        cases hget : Keyed.get? fs a with
        | none => rfl
        | some u => exact throughObjects?_dropAt hrest (hv.field? hget)
      | _ => rfl
    · rw [throughObjects?, throughObjects?, field?_modifyAt p hab]

theorem throughObjects?_dropAt_self (key : String) : ∀ (p : List String) {v : Value}, v.WellFormed →
    (v.modifyAt (dropField key) p).throughObjects? (p ++ [key]) = none
  | [], v, hv => by
    cases hv with
    | obj hk _ =>
      rw [modifyAt, dropField, List.nil_append, throughObjects?_obj, Keyed.get?_swapErase hk, if_pos rfl,
        Option.bind_none]
    | _ => rfl
  | a :: p, v, hv => by
    cases v with
    | obj fs =>
      rw [List.cons_append, throughObjects?_modifyAt_cons]
      cases hget : Keyed.get? fs a with
      | none => rfl
      | some u => exact throughObjects?_dropAt_self key p (hv.field? hget)
    | _ => rfl

/-! ## What is read -/

theorem at?_modifyAt_cons (f : Value → Value) (a b : String) (p q : List String) (fs : Fields) :
    ((obj fs).modifyAt f (a :: p)).at? (b :: q) =
      (Keyed.get? fs b).bind fun u => (if a = b then u.modifyAt f p else u).at? q := by
  rw [modifyAt]
  by_cases hab : a = b
  · subst hab
    simp only [if_true]
    cases hget : Keyed.get? fs a with
    | none => simp only [at?_obj, hget, Option.bind_none]
    | some u => simp only [at?_obj, Keyed.get?_set_self, Option.bind_some]
  · simp only [if_neg hab]
    cases hget : Keyed.get? fs a with
    | none => rfl
    | some u => simp only [at?_obj, Keyed.get?_set_ne _ _ hab]

/-- **A change at a path leaves what is read at paths apart.** -/
theorem at?_modifyAt {f : Value → Value} : ∀ {p q : List String}, Apart p q → ∀ v : Value,
    (v.modifyAt f p).at? q = v.at? q
  | a :: p, b :: q, h, v => by
    cases v with
    | obj fs =>
      rw [at?_modifyAt_cons, at?_obj]
      by_cases hab : a = b
      · have hrest : Apart p q := h.resolve_left fun hne => hne hab
        simp only [if_pos hab, at?_modifyAt hrest]
      · simp only [if_neg hab]
    | _ => rfl

/-- **A removal leaves what is read at paths apart.** -/
theorem at?_dropAt {key : String} : ∀ {p q : List String}, Apart (p ++ [key]) q → ∀ {v : Value}, v.WellFormed →
    (v.modifyAt (dropField key) p).at? q = v.at? q
  | [], b :: q, h, v, hv => by
    have hne : key ≠ b := h.resolve_right fun hno => by cases q <;> exact hno
    cases hv with
    | obj hk _ => rw [modifyAt, dropField, at?_obj, Keyed.get?_swapErase hk, if_neg hne, at?_obj]
    | _ => rfl
  | a :: p, b :: q, h, v, hv => by
    cases v with
    | obj fs =>
      rw [at?_modifyAt_cons, at?_obj]
      cases hget : Keyed.get? fs b with
      | none => rfl
      | some u =>
        by_cases hab : a = b
        · have hrest : Apart (p ++ [key]) q := h.resolve_left fun hne => hne hab
          simp only [if_pos hab, Option.bind_some]
          exact at?_dropAt hrest (hv.field? hget)
        · simp only [if_neg hab]
    | _ => rfl

theorem at?_setAt_empty : ∀ {p q : List String}, Apart p q → ∀ w : Value, ((obj []).setAt p w).at? q = none
  | a :: p, b :: q, h, w => by
    rw [setAt, at?, step?, fieldsOrEmpty, fields?, Option.getD_some, Keyed.get?_nil, Option.getD_none, Keyed.get?_set]
    by_cases hab : a = b
    · rw [if_pos hab, Option.bind_some]
      exact at?_setAt_empty (h.resolve_left fun hne => hne hab) w
    · rw [if_neg hab]
      rfl

/-- Two paths part in an array: objects lead both of them to one with items. -/
def PartInArray (v : Value) (p q : List String) : Prop :=
  ∃ before x xs, before <+: p ∧ before <+: q ∧ v.throughObjects? before = some (arr (x :: xs))

theorem PartInArray.field {fs : Fields} {a : String} {u : Value} {p q : List String} (hget : Keyed.get? fs a = some u)
    (h : u.PartInArray p q) : (obj fs).PartInArray (a :: p) (a :: q) := by
  obtain ⟨before, x, xs, hp, hq, harr⟩ := h
  refine ⟨a :: before, x, xs, List.cons_prefix_cons.2 ⟨rfl, hp⟩, List.cons_prefix_cons.2 ⟨rfl, hq⟩, ?_⟩
  rw [throughObjects?_obj, hget, Option.bind_some, harr]

theorem setAt_of_fieldsOrEmpty {v : Value} (h : v.fieldsOrEmpty = []) (a : String) (p : List String) (w : Value) :
    v.setAt (a :: p) w = (obj []).setAt (a :: p) w := by
  rw [setAt, setAt, h]
  rfl

/-- **Setting a value leaves what is read at paths that do not part from its own in an array.** -/
theorem at?_setAt : ∀ {p q : List String}, Apart p q → ∀ {v : Value}, ¬ v.PartInArray p q → ∀ w : Value,
    (v.setAt p w).at? q = v.at? q
  | a :: p, b :: q, h, v, hv, w => by
    cases v with
    | obj fs =>
      rw [setAt, fieldsOrEmpty, fields?, Option.getD_some, at?_obj, at?_obj, Keyed.get?_set]
      by_cases hab : a = b
      · subst hab
        have hrest : Apart p q := h.resolve_left fun hne => hne rfl
        rw [if_pos rfl, Option.bind_some]
        cases hget : Keyed.get? fs a with
        | none => exact at?_setAt_empty hrest w
        | some u => exact at?_setAt hrest (fun hu => hv (hu.field hget)) w
      · rw [if_neg hab]
    | arr xs =>
      cases xs with
      | nil =>
        rw [setAt_of_fieldsOrEmpty rfl, at?_setAt_empty h, at?, step?]
        cases Text.unsigned64? b <;> rfl
      | cons x xs => exact absurd ⟨[], x, xs, List.nil_prefix, List.nil_prefix, rfl⟩ hv
    -- no other value has anything inside
    | _ =>
      rw [setAt_of_fieldsOrEmpty rfl, at?_setAt_empty h]
      rfl

theorem at?_setAt_in_arr : ∀ {before : List String} {v : Value} {xs : List Value},
    v.throughObjects? before = some (arr xs) → ∀ {p q : List String}, Apart p q → ∀ w : Value,
    (v.setAt (before ++ p) w).at? (before ++ q) = none
  | [], v, xs, h, a :: p, b :: q, hapart, w => by
    cases h
    have hempty : (arr xs).fieldsOrEmpty = [] := rfl
    rw [List.nil_append, List.nil_append, setAt_of_fieldsOrEmpty hempty]
    exact at?_setAt_empty hapart w
  | c :: before, v, xs, h, p, q, hapart, w => by
    obtain ⟨u, hu, hrest⟩ := Option.bind_eq_some_iff.1 h
    cases v with
    | obj fs =>
      have hget : Keyed.get? fs c = some u := hu
      rw [List.cons_append, List.cons_append, setAt, fieldsOrEmpty, fields?, Option.getD_some, at?_obj,
        Keyed.get?_set_self, Option.bind_some, hget, Option.getD_some]
      exact at?_setAt_in_arr hrest hapart w
    | _ => cases hu

/-- **Setting a value leaves nothing at paths that part from its own in an array.** -/
theorem at?_setAt_of_partInArray {v : Value} {p q : List String} (h : Apart p q) (hpart : v.PartInArray p q)
    (w : Value) : (v.setAt p w).at? q = none := by
  obtain ⟨before, x, xs, ⟨p, rfl⟩, ⟨q, rfl⟩, harr⟩ := hpart
  exact at?_setAt_in_arr harr (apart_append_iff.1 h) w

end Value

end DocQuery
