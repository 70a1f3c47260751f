import DocQuery.Proofs.ArrayTarget
import DocQuery.Proofs.FieldWrites

/-!
# Operators on arrays

The operators on arrays look for one at their path, through objects only, and make an empty one where nothing is read.
That is what `$addToSet` wants: it adds just the values that are new, and doing it again changes nothing
(`Change.add_to_set_exact`).  The operators that only take items away make the array as well, so they leave everything
else alone just where something is read at their path (`Change.removals_only_remove_iff`).
-/
namespace DocQuery

namespace Value

theorem isSome_at?_modifyAt (f : Value → Value) : ∀ {p q : List String}, ¬ p <+: q → ∀ v : Value,
    ((v.modifyAt f p).at? q).isSome = (v.at? q).isSome
  | [], _, h, _ => absurd List.nil_prefix h
  | _ :: _, [], _, _ => rfl
  | a :: p, b :: q, h, v => by
    cases v with
    | obj fs =>
      rw [at?_modifyAt_cons, at?_obj]
      cases Keyed.get? fs b with
      | none => rfl
      | some u =>
        rw [Option.bind_some, Option.bind_some]
        split
        · rename_i hab
          exact isSome_at?_modifyAt f (fun hpre => h (List.cons_prefix_cons.2 ⟨hab, hpre⟩)) u
        · rfl
    | _ => rfl

theorem at?_of_beq : ∀ {p : List String} {a b u : Value}, a.beq b = true → a.at? p = some u →
    ∃ w, b.at? p = some w
  | [], _, b, _, _, _ => ⟨b, rfl⟩
  | s :: p, a, b, u, hab, hu => by
    rw [at?] at hu
    obtain ⟨x, hx, hrest⟩ := Option.bind_eq_some_iff.1 hu
    suffices h : ∃ y, b.step? s = some y ∧ x.beq y = true by
      obtain ⟨y, hy, hxy⟩ := h
      obtain ⟨w, hw⟩ := at?_of_beq hxy hrest
      exact ⟨w, by rw [at?, hy, Option.bind_some, hw]⟩
    cases a with
    | obj fs =>
      obtain ⟨gs, rfl, -, hfields⟩ := beq_obj_iff.1 hab
      exact hfields _ (Keyed.mem_of_get? hx)
    | arr xs =>
      obtain ⟨ys, rfl, hlength, hitems⟩ := beq_arr_iff.1 hab
      obtain ⟨i, hi, hxi⟩ := Option.bind_eq_some_iff.1 hx
      have hlt : i < ys.length := by
        rw [← hlength]
        exact (List.getElem?_eq_some_iff.1 hxi).1
      have hy : ys[i]? = some ys[i] := List.getElem?_eq_getElem hlt
      exact ⟨ys[i], by rw [step?, hi, Option.bind_some, hy], hitems i x _ hxi hy⟩
    | _ => cases hx

theorem bne_of_path? {a b u : Value} {path : String} (ha : a.path? path = some u) (hb : b.path? path = none) :
    (a != b) = true := by
  cases hab : a.beq b with
  | false => exact congrArg (!·) hab
  | true =>
    obtain ⟨w, hw⟩ := at?_of_beq hab ha
    rw [path?, hw] at hb
    cases hb

theorem bne_self {v : Value} (hv : v.WellFormed) : (v != v) = false := congrArg (!·) (beq_self hv)

end Value

namespace Change

open Value (Apart)

/-! ## Adding what is new -/

/-- The values that are not among some items, each of them once, in the order in which they come first. -/
def newcomers (items values : List Value) : List Value := (values.filter fun v => !items.any (· == v)).eraseDups

theorem addNew_eq : ∀ {values items : List Value}, (∀ v ∈ values, v.WellFormed) →
    addNew items values = items ++ newcomers items values
  | [], items, _ => by simp [addNew, newcomers]
  | v :: values, items, h => by
    obtain ⟨hv, hvalues⟩ := List.forall_mem_cons.1 h
    rw [addNew, newcomers]
    by_cases hthere : items.any (· == v) = true
    · rw [if_pos hthere, addNew_eq hvalues, List.filter_cons_of_neg (by simp [hthere])]
      rfl
    · -- behind a value that is new, its repetitions are none
      have hlater : values.filter (fun w => !(items ++ [v]).any (· == w)) =
          (values.filter fun w => !items.any (· == w)).filter fun w => !w == v := by
        rw [List.filter_filter]
        refine List.filter_congr fun w hw => ?_
        have hsymm : (v == w) = (w == v) :=
          Bool.eq_iff_iff.2 ⟨Value.beq_symm hv (hvalues w hw), Value.beq_symm (hvalues w hw) hv⟩
        rw [List.any_append, List.any_cons, List.any_nil, Bool.or_false, Bool.not_or, Bool.and_comm, hsymm]
      rw [if_neg hthere, addNew_eq hvalues, newcomers, hlater, List.filter_cons_of_pos (by simpa using hthere),
        List.eraseDups_cons, List.append_assoc, List.singleton_append]

theorem any_addNew : ∀ {values items : List Value}, (∀ v ∈ values, v.WellFormed) →
    ∀ v, items.any (· == v) = true ∨ v ∈ values → (addNew items values).any (· == v) = true
  | [], _, _, v, h => h.resolve_right List.not_mem_nil
  | w :: values, items, hw, v, h => by
    obtain ⟨hself, hvalues⟩ := List.forall_mem_cons.1 hw
    rw [addNew]
    refine any_addNew hvalues v ?_
    rcases h with h | h
    · left
      split
      · exact h
      · rw [List.any_append, h, Bool.true_or]
    · rcases List.mem_cons.1 h with rfl | h
      · left
        split
        · assumption
        · have hvv : (v == v) = true := Value.beq_self hself
          simp [hvv]
      · exact .inr h

theorem addNew_eq_self : ∀ {values items : List Value}, (∀ v ∈ values, items.any (· == v) = true) →
    addNew items values = items
  | [], _, _ => rfl
  | v :: values, items, h => by
    obtain ⟨hv, hvalues⟩ := List.forall_mem_cons.1 h
    rw [addNew, if_pos hv]
    exact addNew_eq_self hvalues

theorem addNew_addNew {values : List Value} (h : ∀ v ∈ values, v.WellFormed) (items : List Value) :
    addNew (addNew items values) values = addNew items values :=
  addNew_eq_self fun v hv => any_addNew h v (.inr hv)

/-- **Adding to a set adds just what is new, and adding it again changes nothing.** -/
theorem add_to_set_exact {doc operand new : Value} {path : String} {changed : Bool} (hd : doc.WellFormed)
    (ho : operand.WellFormed) (h : apply (acting "$addToSet" path operand) doc = (new, .ok changed)) :
    ∃ old, (doc.path? path = some (.arr old) ∨ doc.path? path = none ∧ old = []) ∧
      new.path? path = some (.arr (old ++ newcomers old (addends operand))) ∧
      apply (acting "$addToSet" path operand) new = (new, .ok false) := by
  have hvalues := wellFormed_addends ho
  have hone : ∀ d : Value, operate "$addToSet" path operand d =
      editArray "$addToSet" path d (addNew · (addends operand)) := fun _ => rfl
  have hnew : (apply (acting "$addToSet" path operand) doc).1.WellFormed :=
    wellFormed_apply (Value.WellFormed.single ho.single) hd
  rw [h] at hnew
  rw [apply_acting (by decide), hone] at h
  cases hedit : editArray "$addToSet" path doc (addNew · (addends operand)) with
  | error e =>
    rw [hedit] at h
    cases h
  | ok edited =>
    rw [hedit] at h
    cases h
    obtain ⟨old, hold, harray⟩ := editArray_ok hedit
    refine ⟨old, hold, ?_, ?_⟩
    · rw [path?_of_array harray, addNew_eq hvalues]
    · -- the second time the array is there, with all the values
      rw [apply_acting (by decide), hone, editArray_array harray, addNew_addNew hvalues, setItems_eq_self harray]
      simp only [Value.bne_self hnew]

def tagged : Value := .obj [("_id", .int 1), ("tags", .arr [.str "a"])]

theorem wellFormed_tagged : tagged.WellFormed := by
  refine .obj (by decide) fun e he => ?_
  rcases List.mem_pair.1 he with rfl | rfl
  · exact .int 1
  · exact .arr fun x hx => List.mem_singleton.1 hx ▸ .str "a"

def moreTags : Value := .single "$each" (Value.ofStrings ["x", "x", "a", "y"])

theorem wellFormed_moreTags : moreTags.WellFormed := by
  refine Value.WellFormed.single (.arr fun x hx => ?_)
  obtain ⟨s, -, rfl⟩ := List.mem_map.1 hx
  exact .str s

theorem add_to_set_exact_tags : tagged.WellFormed ∧ moreTags.WellFormed ∧ (Value.str "x").WellFormed ∧
    (∃ new, apply (acting "$addToSet" "tags" moreTags) tagged = (new, .ok true) ∧
      new.path? "tags" = some (Value.ofStrings ["a", "x", "y"]) ∧
      apply (acting "$addToSet" "tags" moreTags) new = (new, .ok false)) ∧
    ∃ new, apply (acting "$addToSet" "tags" (.str "x")) tagged = (new, .ok true) ∧
      new.path? "tags" = some (Value.ofStrings ["a", "x"]) ∧
      apply (acting "$addToSet" "tags" (.str "x")) new = (new, .ok false) := by
  have hread : tagged.path? "tags" = some (.arr [.str "a"]) := rfl
  have hlist : apply (acting "$addToSet" "tags" moreTags) tagged =
      (.obj [("_id", .int 1), ("tags", Value.ofStrings ["a", "x", "y"])], .ok true) := by
    rw [apply_acting (by decide)]
    rfl
  have hone : apply (acting "$addToSet" "tags" (.str "x")) tagged =
      (.obj [("_id", .int 1), ("tags", Value.ofStrings ["a", "x"])], .ok true) := by
    rw [apply_acting (by decide)]
    rfl
  refine ⟨wellFormed_tagged, wellFormed_moreTags, .str "x", ⟨_, hlist, ?_⟩, ⟨_, hone, ?_⟩⟩
  · obtain ⟨old, hold, hnew, hagain⟩ := add_to_set_exact wellFormed_tagged wellFormed_moreTags hlist
    rcases hold with hold | ⟨hold, -⟩
    · cases hread.symm.trans hold
      exact ⟨hnew, hagain⟩
    · cases hread.symm.trans hold
  · obtain ⟨old, hold, hnew, hagain⟩ := add_to_set_exact wellFormed_tagged (.str "x") hone
    rcases hold with hold | ⟨hold, -⟩
    · cases hread.symm.trans hold
      exact ⟨hnew, hagain⟩
    · cases hread.symm.trans hold

/-! ## Taking items away -/

def removers : List String := ["$pop", "$pull", "$pullAll"]

/-- What such an operator leaves of the items: all but the first or the last, or all but some values. -/
def remaining (op : String) (operand : Value) (items : List Value) : List Value :=
  match op with
  | "$pop" => if operand.signed? = some (-1) then items.drop 1 else items.dropLast
  | "$pull" => without [operand] items
  | _ => without (listOperand operand) items

theorem remaining_sublist (op : String) (operand : Value) (items : List Value) :
    (remaining op operand items).Sublist items := by
  unfold remaining
  split
  · split
    · exact List.drop_sublist 1 items
    · exact List.dropLast_sublist items
  · exact List.filter_sublist
  · exact List.filter_sublist

theorem operate_removing {op : String} (hop : op ∈ removers) (path : String) (operand doc : Value) :
    operate op path operand doc = .ok (shrinkArray path doc (remaining op operand)) := by
  simp only [removers, List.mem_cons, List.not_mem_nil, or_false] at hop
  rcases hop with rfl | rfl | rfl
  all_goals rfl

/-- A document is another one with nothing changed but the items of an array at a path, of which some are left. -/
structure OnlyRemoves (left : List Value → List Value) (path : String) (old new : Value) (changed : Bool) : Prop where
  /-- The documents are the same but for what is at the path. -/
  around : new.modifyAt (fun _ => .null) (Path.ofText path) = old.modifyAt (fun _ => .null) (Path.ofText path)
  outside : ∀ other, Apart (Path.ofText path) (Path.ofText other) → new.path? other = old.path? other
  noField : ∀ other, ¬ Path.ofText path <+: Path.ofText other → (new.path? other).isSome = true →
    (old.path? other).isSome = true
  absent : old.path? path = none → new = old ∧ changed = false
  noArray : ∀ v, old.path? path = some v → v.items? = none → new = old ∧ changed = false
  array : ∀ items, old.path? path = some (.arr items) → new.path? path = some (.arr (left items))

section

variable {left : List Value → List Value} {doc : Value} {path : String}

theorem onlyRemoves_self (h : ∀ items, doc.path? path = some (.arr items) → left items = items) :
    OnlyRemoves left path doc doc false where
  around := rfl
  outside := fun _ _ => rfl
  noField := fun _ _ h => h
  absent := fun _ => ⟨rfl, rfl⟩
  noArray := fun _ _ _ => ⟨rfl, rfl⟩
  array := fun items hitems => by rw [h items hitems, hitems]

theorem onlyRemoves_setItems {items : List Value}
    (h : doc.throughObjects? (Path.ofText path) = some (.arr items)) (changed : Bool) :
    OnlyRemoves left path doc (setItems doc path (left items)) changed where
  around := Value.modifyAt_modifyAt _ _ _ doc
  outside := fun other hapart => Value.at?_modifyAt hapart doc
  noField := fun other hbehind hsome => by
    rwa [Value.path?, setItems, Value.isSome_at?_modifyAt _ hbehind] at hsome
  absent := fun hnone => by
    rw [path?_of_array h] at hnone
    cases hnone
  noArray := fun v hv hno => by
    rw [path?_of_array h] at hv
    cases hv
    cases hno
  array := fun items' hitems => by
    rw [path?_of_array h] at hitems
    cases hitems
    exact path?_of_array (throughObjects?_setItems h _)

end

/-- **The operators that take items away do nothing else just where something is read at their path**, and do it just
where objects alone lead there.  Where nothing is read, they put an empty array. -/
theorem removals_only_remove_iff {doc : Value} (hd : doc.WellFormed) {op : String} (hop : op ∈ removers)
    (path : String) (operand : Value) :
    ∃ new changed, apply (acting op path operand) doc = (new, .ok changed) ∧
      (∀ items, (remaining op operand items).Sublist items) ∧
      (OnlyRemoves (remaining op operand) path doc new changed ↔
        ∃ v, doc.path? path = some v ∧ ∀ items, v = .arr items →
          doc.throughObjects? (Path.ofText path) = some v ∨ remaining op operand items = items) ∧
      (doc.path? path = none → new = doc.setPath path (.arr []) ∧ changed = true) ∧
      (∀ v, doc.path? path = some v → doc.throughObjects? (Path.ofText path) = none → new = doc ∧ changed = false) := by
  have hdollar : Text.startsWith op "$" = true := by
    simp only [removers, List.mem_cons, List.not_mem_nil, or_false] at hop
    rcases hop with rfl | rfl | rfl
    all_goals decide
  refine ⟨shrinkArray path doc (remaining op operand), shrinkArray path doc (remaining op operand) != doc,
    by rw [apply_acting hdollar, operate_removing hop], remaining_sublist op operand, ?_⟩
  cases hread : doc.path? path with
  | none =>
    have hnew : shrinkArray path doc (remaining op operand) = doc.setPath path (.arr []) := by
      rw [shrinkArray_absent hread, List.sublist_nil.1 (remaining_sublist op operand [])]
    have hmade := Value.path?_setPath doc (.arr []) path
    rw [hnew]
    refine ⟨iff_of_false (fun h => ?_) (by simp), fun _ => ⟨rfl, Value.bne_of_path? hmade hread⟩,
      fun v hv => by cases hv⟩
    rw [(h.absent hread).1, hread] at hmade
    cases hmade
  | some v =>
    by_cases harray : ∃ items, doc.throughObjects? (Path.ofText path) = some (.arr items)
    · obtain ⟨items, hitems⟩ := harray
      have hv : v = .arr items := Option.some.inj (hread.symm.trans (path?_of_array hitems))
      rw [shrinkArray_array hitems, hitems]
      exact ⟨iff_of_true (onlyRemoves_setItems hitems _) ⟨v, rfl, fun _ _ => .inl (by rw [hv])⟩,
        fun h => (by cases h), fun _ _ h => (by cases h)⟩
    · -- nothing happens, which is right just if there is no array or nothing to take away
      have hno : ∀ items, doc.throughObjects? (Path.ofText path) ≠ some (.arr items) := fun items h => harray ⟨items, h⟩
      rw [shrinkArray_other hread hno, Value.bne_self hd]
      refine ⟨⟨fun h => ⟨v, rfl, fun items hv => .inr ?_⟩, ?_⟩, fun h => (by cases h), fun _ _ _ => ⟨rfl, rfl⟩⟩
      · have hkept := h.array items (by rw [hread, hv])
        rw [hread, hv] at hkept
        exact (Value.arr.inj (Option.some.inj hkept)).symm
      · rintro ⟨w, hw, hright⟩
        cases hw
        refine onlyRemoves_self fun items hitems => ?_
        rw [hread] at hitems
        have hv : v = .arr items := Option.some.inj hitems
        exact (hright items hv).resolve_left fun h => hno items (by rw [h, hv])

theorem removals_only_remove_iff_tags : tagged.WellFormed ∧ "$pull" ∈ removers ∧
    ∃ new changed, apply (acting "$pull" "tags" (.str "a")) tagged = (new, .ok changed) ∧
      OnlyRemoves (without [.str "a"]) "tags" tagged new changed ∧ new.path? "tags" = some (.arr []) := by
  obtain ⟨new, changed, happly, -, hremoves, -⟩ :=
    removals_only_remove_iff wellFormed_tagged (by decide : "$pull" ∈ removers) "tags" (.str "a")
  have honly := hremoves.2 ⟨.arr [.str "a"], rfl, fun _ _ => .inl rfl⟩
  exact ⟨wellFormed_tagged, by decide, new, changed, happly, honly, honly.array _ rfl⟩

/-- **Where nothing is read, an empty array is put**, and what is in the way is gone. -/
theorem pull_makes_field :
    tagged.path? "labels" = none ∧
    apply (acting "$pull" "labels" (.str "a")) tagged =
      (.obj [("_id", .int 1), ("tags", .arr [.str "a"]), ("labels", .arr [])], .ok true) ∧
    tagged.path? "_id.n" = none ∧
    apply (acting "$pop" "_id.n" (.int 1)) tagged =
      (.obj [("_id", .obj [("n", .arr [])]), ("tags", .arr [.str "a"])], .ok true) := by
  refine ⟨rfl, ?_, rfl, ?_⟩
  all_goals
    rw [apply_acting (by decide)]
    rfl

end Change

end DocQuery
