import DocQuery.Proofs.Equality
import DocQuery.Proofs.Paths
import DocQuery.Proofs.SingleCondition

/-!
# Operands of equality

A filter tells a plain value from an object of operators only by its keys, so that equality with such an object is
read as its operators.  Operators compare with what stands inside the object, and cannot tell objects that are nested
more deeply from each other (`Test.ofValue_alike`).  Equality can, so that a condition for equality means equality
just if its operand is no object of operators (`KeyRule.equality_iff`).
-/
namespace DocQuery

namespace Value

/-! ## Nesting -/

mutual

/-- How deeply arrays and objects are nested in a value. -/
def depth : Value → Nat
  | arr xs => depthItems xs + 1
  | obj fs => depthFields fs + 1
  | _ => 0

def depthItems : List Value → Nat
  | [] => 0
  | x :: xs => max x.depth (depthItems xs)

def depthFields : List (String × Value) → Nat
  | [] => 0
  | (_, v) :: r => max v.depth (depthFields r)

end

theorem depthItems_le_iff {n : Nat} : ∀ {xs : List Value}, depthItems xs ≤ n ↔ ∀ x ∈ xs, x.depth ≤ n
  | [] => by simp [depthItems]
  | x :: xs => by rw [depthItems, Nat.max_le, depthItems_le_iff, List.forall_mem_cons]

theorem depthFields_le_iff {n : Nat} : ∀ {fs : List (String × Value)}, depthFields fs ≤ n ↔ ∀ e ∈ fs, e.2.depth ≤ n
  | [] => by simp [depthFields]
  | (key, v) :: fs => by rw [depthFields, Nat.max_le, depthFields_le_iff, List.forall_mem_cons]

theorem depth_item_le {xs : List Value} {x : Value} (h : x ∈ xs) : x.depth ≤ depthItems xs :=
  depthItems_le_iff.1 (Nat.le_refl _) x h

theorem depth_field_le {fs : List (String × Value)} {e : String × Value} (h : e ∈ fs) : e.2.depth ≤ depthFields fs :=
  depthFields_le_iff.1 (Nat.le_refl _) e h

theorem depth_le_of_beq {a b : Value} (ha : a.WellFormed) (h : a.beq b = true) : a.depth ≤ b.depth := by
  induction ha generalizing b with
  | arr items ih =>
    obtain ⟨ys, rfl, hlength, hall⟩ := beq_arr_iff.1 h
    rw [depth, depth, Nat.add_le_add_iff_right, depthItems_le_iff]
    intro x hx
    obtain ⟨i, hi, rfl⟩ := List.getElem_of_mem hx
    have hi' : i < ys.length := hlength ▸ hi
    have hbeq := hall i _ _ (List.getElem?_eq_getElem hi) (List.getElem?_eq_getElem hi')
    exact Nat.le_trans (ih _ hx hbeq) (depth_item_le (List.getElem_mem hi'))
  | obj keys fields ih =>
    obtain ⟨gs, rfl, -, hall⟩ := beq_obj_iff.1 h
    rw [depth, depth, Nat.add_le_add_iff_right, depthFields_le_iff]
    intro e he
    obtain ⟨w, hw, hbeq⟩ := hall e he
    exact Nat.le_trans (ih e he hbeq) (depth_field_le (Keyed.mem_of_get? hw))
  | _ => exact Nat.zero_le _

theorem operators?_eq_some {v : Value} {fs : Fields} (h : v.operators? = some fs) :
    v = obj fs ∧ Keyed.get? fs ObjectId.fieldKey = none := by
  cases v with
  | obj gs =>
    rw [operators?] at h
    split at h
    · rename_i hkeys
      obtain rfl := Option.some.inj h
      simp only [Bool.and_eq_true, Keyed.has, Bool.not_eq_true', Option.isSome_eq_false_iff, Option.isNone_iff_eq_none]
        at hkeys
      exact ⟨rfl, hkeys.2⟩
    · cases h
  | _ => cases h

/-- An object that is nested more deeply than some operands, and no identifier. -/
structure Beyond (n : Nat) (fs : Fields) : Prop where
  wellFormed : (obj fs).WellFormed
  noId : ObjectId.ofValue? (obj fs) = none
  deep : n < (obj fs).depth

namespace Beyond

variable {n : Nat} {fs : Fields}

theorem around {v : Value} (hv : v.WellFormed) (hn : n ≤ v.depth) : Beyond n [("", v)] := by
  have hkeys : (Keyed.keys [("", v)]).Nodup := List.nodup_cons.2 ⟨List.not_mem_nil, .nil⟩
  refine ⟨.obj hkeys (List.forall_mem_singleton.2 hv), ?_, ?_⟩
  · cases v <;> rfl
  · simp only [depth, depthFields]
    omega

theorem meets (h : Beyond n fs) {t : Value} (ht : t.depth ≤ n) : (obj fs).meets t = false := by
  have hbeq : (obj fs).beq t = false := Bool.eq_false_iff.2 fun heq =>
    absurd (depth_le_of_beq h.wellFormed heq) (Nat.not_le.2 (Nat.lt_of_le_of_lt ht h.deep))
  rw [Value.meets, hbeq]
  · rfl
  · intro xs hxs
    cases hxs

theorem any_meets (h : Beyond n fs) {ts : List Value} (ht : depthItems ts ≤ n) :
    ts.any (meetsMissing (some (obj fs))) = false := by
  rw [List.any_eq_false]
  intro t hmem
  rw [meetsMissing, h.meets (depthItems_le_iff.1 ht t hmem)]
  exact Bool.false_ne_true

theorem ordered (h : Beyond n fs) (accept : Ordering → Bool) (t : Value) :
    Value.ordered accept (some (obj fs)) t = false := by
  have horder : (obj fs).order? t = none := by
    unfold order?
    rw [h.noId]
    rfl
  show Option.any accept ((obj fs).order? t) = false
  rw [horder]
  rfl

theorem kindName (h : Beyond n fs) : (obj fs).kindName = "object" := by
  rw [Value.kindName, h.noId]
  rfl

end Beyond

end Value

namespace Test

open Value (Beyond)

/-! ## Operators and deep objects -/

theorem arrayOperand_eq_ok {op : String} {v : Value} {vs : List Value} (h : arrayOperand op v = .ok vs) :
    v = .arr vs := by
  unfold arrayOperand at h
  split at h
  · cases h
    rfl
  · cases h

theorem modOperand_eq_ok {v : Value} {t : Test} (h : modOperand v = .ok t) :
    ∃ divisor remainder, t = .mod divisor remainder := by
  unfold modOperand at h
  split at h
  · split at h
    · split at h
      · exact ⟨_, _, (Except.ok.inj h).symm⟩
      · cases h
    · cases h
  · cases h

/-- A test that both of two objects pass, or none. -/
def Alike (fs gs : Fields) (t : Test) : Prop := t.holds (some (.obj fs)) = t.holds (some (.obj gs))

theorem allHold_alike {fs gs : Fields} : ∀ {ts : List Test}, (∀ t ∈ ts, Alike fs gs t) →
    allHold ts (some (.obj fs)) = allHold ts (some (.obj gs))
  | [], _ => rfl
  | t :: ts, h => by
    obtain ⟨ht, hts⟩ := List.forall_mem_cons.1 h
    rw [allHold, allHold, ht, allHold_alike hts]

section

variable {n : Nat} {fs gs : Fields} (hf : Beyond n fs) (hg : Beyond n gs)

include hf hg

theorem ofOperator_alike {all : Fields} {op : String} {v : Value} {ts : List Test} (h : ofOperator all op v = .ok ts)
    (hv : v.depth ≤ n) : ∀ t ∈ ts, Alike fs gs t := by
  have hmeets : ∀ {w : Value}, w.depth ≤ n → Value.meetsMissing (some (.obj fs)) w =
      Value.meetsMissing (some (.obj gs)) w := fun hw => by
    rw [Value.meetsMissing, Value.meetsMissing, hf.meets hw, hg.meets hw]
  have hordered : ∀ accept w, Value.ordered accept (some (.obj fs)) w = Value.ordered accept (some (.obj gs)) w :=
    fun accept w => by rw [hf.ordered, hg.ordered]
  have hitems : ∀ {vs : List Value}, v = .arr vs → vs.any (Value.meetsMissing (some (.obj fs))) =
      vs.any (Value.meetsMissing (some (.obj gs))) := fun hvs => by
    rw [hvs, Value.depth] at hv
    rw [hf.any_meets (Nat.le_of_succ_le hv), hg.any_meets (Nat.le_of_succ_le hv)]
  have hone : ∀ {t : Test}, Alike fs gs t → ∀ u ∈ [t], Alike fs gs u := fun ht => List.forall_mem_singleton.2 ht
  unfold ofOperator at h
  split at h
  · cases h
    exact hone (by rw [Alike, holds, holds, hmeets hv])
  · cases h
    exact hone (by rw [Alike, holds, holds, hmeets hv])
  · cases h
    exact hone (by rw [Alike, holds, holds, hordered])
  · cases h
    exact hone (by rw [Alike, holds, holds, hordered])
  · cases h
    exact hone (by rw [Alike, holds, holds, hordered])
  · cases h
    exact hone (by rw [Alike, holds, holds, hordered])
  · obtain ⟨vs, hvs, rfl⟩ := map_eq_ok.1 h
    exact hone (by rw [Alike, holds, holds, hitems (arrayOperand_eq_ok hvs)])
  · obtain ⟨vs, hvs, rfl⟩ := map_eq_ok.1 h
    exact hone (by rw [Alike, holds, holds, hitems (arrayOperand_eq_ok hvs)])
  -- arrays, presence, texts, lengths and remainders do not look into objects
  · obtain ⟨vs, -, rfl⟩ := map_eq_ok.1 h
    exact hone rfl
  · obtain ⟨b, -, rfl⟩ := map_eq_ok.1 h
    exact hone rfl
  · cases h
    exact hone (by rw [Alike, holds, holds, Option.any_some, Option.any_some, hf.kindName, hg.kindName])
  · obtain ⟨p, -, rfl⟩ := map_eq_ok.1 h
    exact hone rfl
  · cases h
    exact fun t ht => (by cases ht)
  · split at h
    · cases h
      exact hone rfl
    · cases h
  · obtain ⟨t, ht, rfl⟩ := map_eq_ok.1 h
    obtain ⟨divisor, remainder, rfl⟩ := modOperand_eq_ok ht
    exact hone rfl
  · cases h

theorem plain_alike {v : Value} {ts : List Test} (h : ofValue v = .ok ts) (hplain : v.operators? = none)
    (hv : v.depth ≤ n) : ∀ t ∈ ts, Alike fs gs t := by
  rw [← Except.ok.inj ((Comparator.test_ofValue_plain hplain).symm.trans h)]
  refine List.forall_mem_singleton.2 ?_
  rw [Alike, holds, holds, Value.meetsMissing, Value.meetsMissing, hf.meets hv, hg.meets hv]

mutual

/-- **No tests can tell two objects that are deeper than all operands.** -/
theorem ofValue_alike : ∀ {v : Value} {ts : List Test}, ofValue v = .ok ts → v.depth ≤ n → ∀ t ∈ ts, Alike fs gs t
  | .obj es, _, h, hv => by
    cases hops : (Value.obj es).operators? with
    | none => exact plain_alike hf hg h hops hv
    | some es' =>
      rw [ofValue, hops] at h
      refine ofOperators_alike h fun e he => ?_
      rw [Value.depth] at hv
      exact Nat.le_trans (Value.depth_field_le he) (Nat.le_of_succ_le hv)
  | .null, _, h, hv | .bool _, _, h, hv | .int _, _, h, hv | .float _, _, h, hv | .str _, _, h, hv
  | .arr _, _, h, hv => plain_alike hf hg h rfl hv

theorem ofOperators_alike {all : Fields} : ∀ {es : List (String × Value)} {ts : List Test},
    ofOperators all es = .ok ts → (∀ e ∈ es, e.2.depth ≤ n) → ∀ t ∈ ts, Alike fs gs t
  | [], _, h, _ => by
    rw [ofOperators] at h
    cases h
    exact fun t ht => (by cases ht)
  | (op, v) :: es, ts, h, hes => by
    obtain ⟨hv, hes⟩ := List.forall_mem_cons.1 hes
    rw [ofOperators_cons] at h
    obtain ⟨first, hfirst, h⟩ := bind_eq_ok.1 h
    obtain ⟨rest, hrest, rfl⟩ := map_eq_ok.1 h
    refine List.forall_mem_append.2 ⟨?_, ofOperators_alike hrest hes⟩
    rw [ofEntry] at hfirst
    split at hfirst
    · obtain ⟨inner, hinner, rfl⟩ := map_eq_ok.1 hfirst
      refine List.forall_mem_singleton.2 ?_
      rw [Alike, holds, holds, allHold_alike (ofValue_alike hinner hv)]
    · exact ofOperator_alike hf hg hfirst hv

end

end

theorem operators_alike {v : Value} {fs : Fields} (hv : v.WellFormed) (hops : v.operators? = some fs)
    {ts : List Test} (h : ofOperators fs fs = .ok ts) :
    allHold ts (some v) = allHold ts (some (.single "" v)) := by
  obtain ⟨rfl, hid⟩ := Value.operators?_eq_some hops
  have hinner : Beyond (Value.depthFields fs) fs := by
    refine ⟨hv, ?_, by rw [Value.depth]; exact Nat.lt_succ_self _⟩
    unfold ObjectId.ofValue?
    split
    · rename_i key s heq
      cases heq
      exact if_neg fun hkey => Keyed.get?_eq_none.1 hid _ List.mem_cons_self hkey
    · rfl
  have houter : Beyond (Value.depthFields fs) [("", .obj fs)] := .around hv (by rw [Value.depth]; exact Nat.le_succ _)
  exact allHold_alike (ofOperators_alike hinner houter h fun e he => Value.depth_field_le he)

end Test

namespace KeyRule

section

variable {r : KeyRule} {l : Logic} {field op : String}

/-- **The operand of equality stands in the filter as it is**, and is read there as a value or as operators. -/
theorem readFilter_equality (hop : Comparator.ofText? op = some .eq) (hbar : Text.hasChar '|' field = false)
    (hamp : Text.hasChar '&' field = false) (hs : Text.startsWith (r.storedName field) "$" = false)
    (hid : r.storedName field ≠ "_id") (v : Value) : r.readFilter (alone l field (.single op v)) =
      (Test.ofValue v).map fun ts => [.junction l.junction [[.field (r.storedName field) ts]]] := by
  have hstored : r.storedValue (r.storedName field) v = v := if_neg fun h => hid h.1
  have hitem : r.item field (.single op v) = .ok (.obj [(r.storedName field, v)]) := by
    rw [item, Comparator.ofOperator_eq hop, Comparator.compiled, hstored]
    rfl
  rw [readFilter_alone hbar hamp, hitem]
  show (Filter.ofValue _).map _ = _
  rw [Comparator.ofValue_single hs]
  cases Test.ofValue v <;> rfl

end

/-- **Equality is equality just if the operand is no object of operators.**  Every other operand is accepted, and the
filter holds on a document just if the value of the field equals it, or is missing and the operand null.  An object of
operators is never read so: its filter is refused, or differs on some document. -/
theorem equality_iff (r : KeyRule) (l : Logic) {field op : String} (hop : Comparator.ofText? op = some .eq)
    (hbar : Text.hasChar '|' field = false) (hamp : Text.hasChar '&' field = false)
    (hs : Text.startsWith (r.storedName field) "$" = false) (hid : r.storedName field ≠ "_id") {v : Value}
    (hv : v.WellFormed) :
    ((∃ f, r.readFilter (alone l field (.single op v)) = .ok f ∧
      ∀ doc, f.holds doc = Value.meetsMissing (doc.path? (r.storedName field)) v) ↔ v.operators? = none) ∧
    (∀ fs, v.operators? = some fs → ∀ doc, r.HoldsAlone l field (.single op v) doc ↔
      ∃ ts, Test.ofOperators fs fs = .ok ts ∧ Test.allHold ts (doc.path? (r.storedName field)) = true) := by
  have hread := readFilter_equality (l := l) hop hbar hamp hs hid v
  have hholds := Filter.holds_field l (r.storedName field)
  have htests : ∀ fs, v.operators? = some fs → Test.ofValue v = Test.ofOperators fs fs := fun fs hops => by
    obtain ⟨rfl, -⟩ := Value.operators?_eq_some hops
    exact Comparator.test_ofValue_operators hops
  refine ⟨⟨?_, fun hplain => ?_⟩, fun fs hops doc => ?_⟩
  · -- the operators hold on the object around the operand if they hold on the operand
    rintro ⟨f, hf, hmeets⟩
    refine Option.eq_none_iff_forall_ne_some.2 fun fs hops => ?_
    rw [hread, htests fs hops] at hf
    obtain ⟨ts, hts, rfl⟩ := map_eq_ok.1 hf
    have hvalue : ∀ x, Test.allHold ts x = Value.meetsMissing x v := fun x => by
      obtain ⟨doc, rfl⟩ := Value.exists_path? (r.storedName field) x
      rw [← hholds, hmeets]
    have hself : v.meets v = true := by
      obtain ⟨rfl, -⟩ := Value.operators?_eq_some hops
      rw [Value.meets, Value.beq_self hv, Bool.true_or]
      intro xs hxs
      cases hxs
    have haround : (Value.single "" v).meets v = false := (Value.Beyond.around hv (Nat.le_refl _)).meets (Nat.le_refl _)
    have halike := Test.operators_alike hv hops hts
    rw [hvalue, hvalue, Value.meetsMissing, Value.meetsMissing, hself, haround] at halike
    cases halike
  · rw [hread, Comparator.test_ofValue_plain hplain]
    refine ⟨_, rfl, fun doc => ?_⟩
    rw [hholds, Comparator.allHold_one, Test.holds]
  · rw [HoldsAlone, hread, htests fs hops]
    simp only [map_eq_ok]
    constructor
    · rintro ⟨f, ⟨ts, hts, rfl⟩, h⟩
      exact ⟨ts, hts, hholds ts doc ▸ h⟩
    · rintro ⟨ts, hts, h⟩
      exact ⟨_, ⟨ts, hts, rfl⟩, (hholds ts doc).trans h⟩

def place : Value := .single "city" (.str "Oslo")

theorem equality_iff_place : Comparator.ofText? " EQ " = some .eq ∧ Text.hasChar '|' "home" = false ∧
    Text.hasChar '&' "home" = false ∧ Text.startsWith (storedName ⟨true, .native⟩ "home") "$" = false ∧
    storedName ⟨true, .native⟩ "home" ≠ "_id" ∧ place.WellFormed ∧
    ∃ f, readFilter ⟨true, .native⟩ (alone .xor "home" (.single " EQ " place)) = .ok f ∧
      ∀ doc, f.holds doc = Value.meetsMissing (doc.path? (storedName ⟨true, .native⟩ "home")) place := by
  have hop : Comparator.ofText? " EQ " = some .eq := by decide
  have hs : Text.startsWith (storedName ⟨true, .native⟩ "home") "$" = false := by decide
  have hid : storedName ⟨true, .native⟩ "home" ≠ "_id" := by decide
  have hkeys : (Keyed.keys [("city", Value.str "Oslo")]).Nodup := List.nodup_cons.2 ⟨List.not_mem_nil, .nil⟩
  have hplace : place.WellFormed := .obj hkeys (List.forall_mem_singleton.2 (.str "Oslo"))
  exact ⟨hop, by decide, by decide, hs, hid, hplace,
    (equality_iff ⟨true, .native⟩ .xor hop (by decide) (by decide) hs hid hplace).1.2 (by decide)⟩

/-- **Equality with an object of operators holds on what the operators say**, and not on what equals the object. -/
theorem equality_reads_operators :
    ∃ f, readFilter ⟨false, .native⟩ (alone .and "a" (.single "=" (.single "$gt" (.int 5)))) = .ok f ∧
      f.holds (.obj [("a", .int 7)]) = true ∧
      Value.meetsMissing ((Value.obj [("a", .int 7)]).path? "a") (.single "$gt" (.int 5)) = false ∧
      f.holds (.obj [("a", .single "$gt" (.int 5))]) = false ∧
      Value.meetsMissing ((Value.obj [("a", .single "$gt" (.int 5))]).path? "a") (.single "$gt" (.int 5)) = true := by
  have hread : readFilter ⟨false, .native⟩ (alone .and "a" (.single "=" (.single "$gt" (.int 5)))) =
      .ok [.junction .and [[.field "a" [.gt (.int 5)]]]] := rfl
  exact ⟨_, hread, rfl, rfl, rfl, rfl⟩

end KeyRule

end DocQuery
