import DocQuery.Proofs.NativeId

/-!
# What flattening leaves

Flattening looks whether a value is an identifier before it flattens what is inside.  So an object that has an
identifier in the place of the text of another becomes an identifier by being flattened (`Value.Wraps`).  There is no
other way for one to be left: without such an object none is, and flattening again changes nothing
(`Value.flattening_leaves_none_iff`).
-/
namespace DocQuery.Value

/-- Something is true of a value, or of one that is somewhere inside it. -/
inductive Somewhere (P : Value → Prop) : Value → Prop
  | here {v : Value} (h : P v) : Somewhere P v
  | item {xs : List Value} {x : Value} (hx : x ∈ xs) (h : Somewhere P x) : Somewhere P (arr xs)
  | field {fs : Fields} {e : String × Value} (he : e ∈ fs) (h : Somewhere P e.2) : Somewhere P (obj fs)

def IsNative (v : Value) : Prop := (ObjectId.ofValue? v).isSome = true

/-- An object with nothing but an identifier in the place of the text of another. -/
def Wraps (v : Value) : Prop := ∃ w, v = single ObjectId.fieldKey w ∧ IsNative w

section

variable {P : Value → Prop} {v : Value} {fs : Fields} {xs : List Value}

theorem somewhere_arr_iff : Somewhere P (arr xs) ↔ P (arr xs) ∨ ∃ x ∈ xs, Somewhere P x := by
  constructor
  · intro h
    cases h with
    | here h => exact .inl h
    | item hx h => exact .inr ⟨_, hx, h⟩
  · rintro (h | ⟨x, hx, h⟩)
    · exact .here h
    · exact .item hx h

theorem somewhere_obj_iff : Somewhere P (obj fs) ↔ P (obj fs) ∨ ∃ e ∈ fs, Somewhere P e.2 := by
  constructor
  · intro h
    cases h with
    | here h => exact .inl h
    | field he h => exact .inr ⟨_, he, h⟩
  · rintro (h | ⟨e, he, h⟩)
    · exact .here h
    · exact .field he h

/-! ## One step -/

theorem isNative_iff : IsNative v ↔ ∃ s id, v = single ObjectId.fieldKey (str s) ∧ ObjectId.ofText? s = some id := by
  constructor
  · intro h
    obtain ⟨id, hid⟩ := Option.isSome_iff_exists.1 h
    obtain ⟨s, hv, hs⟩ := ObjectId.eq_single_of_ofValue? hid
    exact ⟨s, id, hv, hs⟩
  · rintro ⟨s, id, rfl, hs⟩
    rw [IsNative, single, ObjectId.ofValue?, if_pos rfl, hs]
    rfl

theorem flattenItems_eq : ∀ xs : List Value, flattenItems xs = xs.map flattenIds
  | [] => rfl
  | x :: xs => by rw [flattenItems, flattenItems_eq xs, List.map_cons]

theorem flattenFields_eq : ∀ fs : List (String × Value), flattenFields fs = fs.map fun e => (e.1, e.2.flattenIds)
  | [] => rfl
  | (k, v) :: fs => by rw [flattenFields, flattenFields_eq fs, List.map_cons]

theorem flattenIds_arr (xs : List Value) : (arr xs).flattenIds = arr (xs.map flattenIds) := by
  rw [flattenIds, flattenItems_eq]

theorem flattenIds_native (h : IsNative v) : ∃ id : ObjectId, v.flattenIds = str id.text := by
  obtain ⟨id, hid⟩ := Option.isSome_iff_exists.1 h
  obtain ⟨s, rfl, -⟩ := ObjectId.eq_single_of_ofValue? hid
  exact ⟨id, by rw [flattenIds, hid]⟩

theorem flattenIds_obj (h : ¬ IsNative (obj fs)) :
    (obj fs).flattenIds = obj (fs.map fun e => (e.1, e.2.flattenIds)) := by
  have hnone : ObjectId.ofValue? (obj fs) = none := by simpa [IsNative] using h
  rw [flattenIds, hnone, flattenFields_eq]

theorem native_of_flattenIds_str {s : String} (h : v.flattenIds = str s) : v = str s ∨ IsNative v := by
  cases v with
  | str t => exact .inl h
  | obj fs =>
    by_cases hv : IsNative (obj fs)
    · exact .inr hv
    · rw [flattenIds_obj hv] at h
      cases h
  | _ => cases h

/-- **An object becomes an identifier just if it has one in the place of the text.** -/
theorem isNative_map_iff (h : ¬ IsNative (obj fs)) :
    IsNative (obj (fs.map fun e => (e.1, e.2.flattenIds))) ↔ Wraps (obj fs) := by
  constructor
  · intro hnative
    obtain ⟨s, id, heq, hs⟩ := isNative_iff.1 hnative
    obtain ⟨e, rfl, he⟩ := List.map_eq_singleton_iff.1 (Value.obj.inj heq)
    obtain ⟨k, w⟩ := e
    obtain ⟨rfl, hw⟩ := Prod.mk.inj he
    rcases native_of_flattenIds_str hw with rfl | hw
    · exact absurd (isNative_iff.2 ⟨s, id, rfl, hs⟩) h
    · exact ⟨w, rfl, hw⟩
  · rintro ⟨w, heq, hw⟩
    obtain ⟨id, hid⟩ := flattenIds_native hw
    obtain rfl := Value.obj.inj heq
    exact isNative_iff.2 ⟨id.text, id, by rw [List.map_singleton, hid, single], ObjectId.ofText?_text id⟩

theorem not_somewhere_wraps (h : IsNative v) : ¬ Somewhere Wraps v := by
  obtain ⟨s, id, rfl, -⟩ := isNative_iff.1 h
  have hstr : ¬ IsNative (str s) := nofun
  intro hwraps
  rcases somewhere_obj_iff.1 hwraps with ⟨w, hw, hnative⟩ | ⟨e, he, hwraps⟩
  · cases hw
    exact hstr hnative
  · obtain rfl := List.mem_singleton.1 he
    cases hwraps with
    | here h =>
      obtain ⟨w, hw, -⟩ := h
      cases hw

end

/-! ## All of a value -/

mutual

/-- **An identifier is left just where one was wrapped.** -/
theorem somewhere_flattenIds_iff : ∀ v : Value, Somewhere IsNative v.flattenIds ↔ Somewhere Wraps v
  | obj fs => by
    by_cases hnative : IsNative (obj fs)
    · refine iff_of_false ?_ (not_somewhere_wraps hnative)
      obtain ⟨id, hid⟩ := flattenIds_native hnative
      rw [hid]
      rintro ⟨⟨⟩⟩
    · rw [flattenIds_obj hnative, somewhere_obj_iff, somewhere_obj_iff]
      exact or_congr (isNative_map_iff hnative) (somewhere_flattenFields_iff fs)
  | arr xs => by
    rw [flattenIds_arr, somewhere_arr_iff, somewhere_arr_iff]
    refine or_congr (iff_of_false nofun ?_) (somewhere_flattenItems_iff xs)
    rintro ⟨w, hw, -⟩
    cases hw
  | .null | .bool _ | .int _ | .float _ | .str _ => by
    refine iff_of_false ?_ ?_
    · rintro ⟨⟨⟩⟩
    · rintro ⟨w, hw, -⟩
      cases hw

theorem somewhere_flattenItems_iff (xs : List Value) :
    (∃ x ∈ xs.map flattenIds, Somewhere IsNative x) ↔ ∃ x ∈ xs, Somewhere Wraps x := by
  cases xs with
  | nil => simp
  | cons x xs =>
    rw [List.map_cons, List.exists_mem_cons_iff, List.exists_mem_cons_iff, somewhere_flattenIds_iff x,
      somewhere_flattenItems_iff xs]

theorem somewhere_flattenFields_iff (fs : List (String × Value)) :
    (∃ e ∈ fs.map fun e => (e.1, e.2.flattenIds), Somewhere IsNative e.2) ↔ ∃ e ∈ fs, Somewhere Wraps e.2 := by
  rcases fs with _ | ⟨⟨k, v⟩, fs⟩
  · simp
  · rw [List.map_cons, List.exists_mem_cons_iff, List.exists_mem_cons_iff, somewhere_flattenIds_iff v,
      somewhere_flattenFields_iff fs]

end

mutual

theorem flattenIds_eq_self : ∀ {v : Value}, ¬ Somewhere IsNative v → v.flattenIds = v
  | obj fs, h => by
    rw [somewhere_obj_iff, not_or] at h
    rw [flattenIds_obj h.1, map_flattenFields_eq_self h.2]
  | arr xs, h => by
    rw [somewhere_arr_iff, not_or] at h
    rw [flattenIds_arr, map_flattenItems_eq_self h.2]
  | .null, _ | .bool _, _ | .int _, _ | .float _, _ | .str _, _ => rfl

theorem map_flattenItems_eq_self : ∀ {xs : List Value}, ¬ (∃ x ∈ xs, Somewhere IsNative x) → xs.map flattenIds = xs
  | [], _ => rfl
  | x :: xs, h => by
    rw [List.exists_mem_cons_iff, not_or] at h
    rw [List.map_cons, flattenIds_eq_self h.1, map_flattenItems_eq_self h.2]

theorem map_flattenFields_eq_self : ∀ {fs : List (String × Value)}, ¬ (∃ e ∈ fs, Somewhere IsNative e.2) →
    (fs.map fun e => (e.1, e.2.flattenIds)) = fs
  | [], _ => rfl
  | (k, v) :: fs, h => by
    rw [List.exists_mem_cons_iff, not_or] at h
    rw [List.map_cons, flattenIds_eq_self h.1, map_flattenFields_eq_self h.2]

end

/-- **What has no identifier in it stays as it is, and nothing else does.** -/
theorem flattenIds_eq_self_iff {v : Value} : v.flattenIds = v ↔ ¬ Somewhere IsNative v := by
  refine ⟨fun heq h => ?_, flattenIds_eq_self⟩
  induction h with
  | here h =>
    obtain ⟨id, hid⟩ := flattenIds_native h
    obtain ⟨s, _, rfl, -⟩ := isNative_iff.1 h
    rw [hid] at heq
    cases heq
  | item hx h ih =>
    rw [flattenIds_arr] at heq
    exact ih (List.map_inj_left.1 ((Value.arr.inj heq).trans (List.map_id _).symm) _ hx)
  | @field fs e he h ih =>
    by_cases hnative : IsNative (obj fs)
    · obtain ⟨id, hid⟩ := flattenIds_native hnative
      rw [hid] at heq
      cases heq
    · rw [flattenIds_obj hnative] at heq
      have hsame := List.map_inj_left.1 ((Value.obj.inj heq).trans (List.map_id _).symm) e he
      exact ih (congrArg Prod.snd hsame)

/-- **Flattening leaves an identifier just where one was wrapped.**  Without an object that has an identifier in the
place of the text of another, no value in what is left is read as an identifier, and flattening it again changes
nothing; with such an object neither is so.  A value stays as it is just if it has no identifier in it. -/
theorem flattening_leaves_none_iff (v : Value) :
    (¬ Somewhere IsNative v.flattenIds ↔ ¬ Somewhere Wraps v) ∧
    (v.flattenIds.flattenIds = v.flattenIds ↔ ¬ Somewhere Wraps v) ∧
    (v.flattenIds = v ↔ ¬ Somewhere IsNative v) := by
  have hleft := somewhere_flattenIds_iff v
  refine ⟨not_congr hleft, ?_, flattenIds_eq_self_iff⟩
  rw [flattenIds_eq_self_iff, hleft]

def oneIdentifier : Value := .single "$oid" (.str "5f1d7a3b9c2e4a0012345678")

/-- **A wrapped identifier leaves an identifier**, which flattening again would take. -/
theorem wrapped_identifier_is_left : (single "$oid" oneIdentifier).flattenIds = oneIdentifier ∧
    Somewhere IsNative (single "$oid" oneIdentifier).flattenIds ∧
    (single "$oid" oneIdentifier).flattenIds.flattenIds ≠ (single "$oid" oneIdentifier).flattenIds := by
  have hleft : (single "$oid" oneIdentifier).flattenIds = oneIdentifier := rfl
  have hagain : oneIdentifier.flattenIds = str "5f1d7a3b9c2e4a0012345678" := rfl
  rw [hleft, hagain]
  exact ⟨rfl, .here rfl, nofun⟩

end DocQuery.Value
