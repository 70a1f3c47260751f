import DocQuery.Proofs.Conditions
import DocQuery.Proofs.Operands

/-!
# Comparators — what the operators of conditions say

The fifteen comparators that a caller can ask of a field, each with the spellings of its operator and with its plain
reading on a value, for which an operand is what `operands`, `asks` and `length?` say of it.  Compiling a filter to a
document and reading it back keeps that reading (`compileFilter_keeps_meaning`).
-/
namespace DocQuery

inductive Comparator where
  | eq
  | ne
  | gt
  | gte
  | lt
  | lte
  | isIn
  | notIn
  | all
  | null
  | notNull
  | present
  | size
  | between
  | notBetween
  deriving DecidableEq

namespace Comparator

def every : List Comparator :=
  [eq, ne, gt, gte, lt, lte, isIn, notIn, all, null, notNull, present, size, between, notBetween]

def spellings : Comparator → List String
  | eq => ["=", "eq"]
  | ne => ["<>", "neq", "ne"]
  | gt => [">", "gt"]
  | gte => [">=", "egt", "gte"]
  | lt => ["<", "lt"]
  | lte => ["<=", "elt", "lte"]
  | isIn => ["in"]
  | notIn => ["not in", "nin"]
  | all => ["all"]
  | null => ["null"]
  | notNull => ["not null", "notnull"]
  | present => ["exists"]
  | size => ["size"]
  | between => ["between"]
  | notBetween => ["not between"]

/-- The comparator that an operator names, in any case and with blanks around it. -/
def ofText? (op : String) : Option Comparator :=
  every.find? fun rel => String.ofList ((bare op.toList).map Char.toLower) ∈ rel.spellings

def within (v : Option Value) (low high : Value) : Bool :=
  Value.ordered (· != .lt) v low && Value.ordered (· != .gt) v high

/-- The plain reading of a comparator on a value, which may be missing, and an operand.  `stored` turns operands into
stored values. -/
def holds (stored : Value → Value) (operand : Value) (v : Option Value) : Comparator → Bool
  | eq => Value.meetsMissing v (stored operand)
  | ne => !Value.meetsMissing v (stored operand)
  | gt => Value.ordered (· == .gt) v (stored operand)
  | gte => Value.ordered (· != .lt) v (stored operand)
  | lt => Value.ordered (· == .lt) v (stored operand)
  | lte => Value.ordered (· != .gt) v (stored operand)
  | isIn => (operands operand).any fun w => Value.meetsMissing v (stored w)
  | notIn => (operands operand).all fun w => !Value.meetsMissing v (stored w)
  | all => (v.bind Value.items?).any fun xs => (operands operand).all fun w => xs.any (·.meets (stored w))
  | null => Value.meetsMissing v .null
  | notNull => !Value.meetsMissing v .null
  | present => v.isSome == asks operand
  | size => (v.bind Value.items?).any fun xs => length? operand == some xs.length
  | between =>
    match operands operand with
    | [low, high] => within v (stored low) (stored high)
    | _ => false
  | notBetween =>
    match operands operand with
    | [low, high] => !within v (stored low) (stored high)
    | _ => false

/-- Whether a condition on a single field holds on a document by the plain reading of its operator. -/
def clauseHolds (r : KeyRule) (doc : Value) : Option String × Condition Scope → Bool
  | (some field, .plain (.single op operand)) =>
    match ofText? op with
    | some rel => rel.holds (r.storedValue (r.storedName field)) operand (doc.path? (r.storedName field))
    | none => false
  | _ => false

/-- A condition on a single field by the operator of a comparator; equality is not with an object of operators. -/
def IsPlain (r : KeyRule) (e : Option String × Condition Scope) : Prop :=
  ∃ field op operand rel, e = (some field, .plain (.single op operand)) ∧ ofText? op = some rel ∧
    Text.hasChar '|' field = false ∧ Text.hasChar '&' field = false ∧
    Text.startsWith (r.storedName field) "$" = false ∧ (rel = eq → operand.operators? = none)

/-! ## Reading operators back -/

theorem ofKey?_of_plain {key : String} (h : Text.startsWith key "$" = false) : Junction.ofKey? key = none := by
  unfold Junction.ofKey?
  split
  · exact absurd h (by decide)
  · exact absurd h (by decide)
  · exact absurd h (by decide)
  · exact absurd h (by decide)
  · rfl

theorem ofValue_single {stored : String} (h : Text.startsWith stored "$" = false) (v : Value) :
    Filter.ofValue (.obj [(stored, v)]) = (Test.ofValue v).map fun tests => [.field stored tests] := by
  have hw : stored ≠ "$where" := fun e => absurd h (by rw [e]; decide)
  rw [Filter.ofValue_obj, Filter.ofFields_cons, Filter.ofFields, Filter.readField, ofKey?_of_plain h]
  simp only [hw, if_false, h, Bool.false_eq_true]
  cases Test.ofValue v <;> rfl

theorem ofValue_field {stored : String} (h : Text.startsWith stored "$" = false) {v : Value} {tests : List Test}
    (hv : Test.ofValue v = .ok tests) : Filter.ofValue (.obj [(stored, v)]) = .ok [.field stored tests] := by
  rw [ofValue_single h, hv]
  rfl

theorem test_ofValue_plain {v : Value} (h : v.operators? = none) : Test.ofValue v = .ok [.eq v] := by
  cases v with
  | obj fs => rw [Test.ofValue, h]
  | _ => rw [Test.ofValue]; simp

theorem operators?_storedValue (r : KeyRule) (stored : String) {v : Value} (h : v.operators? = none) :
    (r.storedValue stored v).operators? = none := by
  unfold KeyRule.storedValue
  split
  · cases v with
    | str s =>
      rw [KeyRule.nativeIds]
      split
      · rename_i id hid
        unfold ObjectId.toValue Value.operators?
        simp [Keyed.has, Keyed.get?]
      · rfl
    | arr xs => rw [KeyRule.nativeIds]; rfl
    | _ => simpa [KeyRule.nativeIds] using h
  · exact h

theorem test_ofOperators_cons (all : Fields) {op : String} (hop : op ≠ "$not") (v : Value)
    (rest : List (String × Value)) : Test.ofOperators all ((op, v) :: rest) =
      Test.ofOperator all op v >>= fun first => (Test.ofOperators all rest).map (first ++ ·) := by
  rw [Test.ofOperators]
  simp only [hop, if_false]
  rfl

theorem test_ofValue_operators {fs : Fields} (h : (Value.obj fs).operators? = some fs) :
    Test.ofValue (.obj fs) = Test.ofOperators fs fs := by
  rw [Test.ofValue, h]

theorem operators?_obj {fs : Fields} (hne : fs ≠ []) (hop : ∀ e ∈ fs, Text.startsWith e.1 "$" = true)
    (hid : Keyed.get? fs ObjectId.fieldKey = none) : (Value.obj fs).operators? = some fs := by
  have hall : fs.all (fun e => Text.startsWith e.1 "$") = true := List.all_eq_true.2 hop
  unfold Value.operators?
  simp [hne, hall, Keyed.has, hid]

theorem test_ofValue_operator {op : String} (hop : Text.startsWith op "$" = true) (hid : op ≠ ObjectId.fieldKey)
    (hnot : op ≠ "$not") (v : Value) {ts : List Test} (h : Test.ofOperator [(op, v)] op v = .ok ts) :
    Test.ofValue (.obj [(op, v)]) = .ok ts := by
  have hv : (Value.obj [(op, v)]).operators? = some [(op, v)] :=
    operators?_obj (by simp) (by simpa using hop) (by simp [Keyed.get?_cons, hid])
  rw [test_ofValue_operators hv, test_ofOperators_cons _ hnot, h, Test.ofOperators]
  show Except.ok (ts ++ []) = Except.ok ts
  rw [List.append_nil]

theorem test_ofValue_range (low high : Value) :
    Test.ofValue (.obj [("$gte", low), ("$lte", high)]) = .ok [.gte low, .lte high] := by
  have hgte : Text.startsWith "$gte" "$" = true := by decide
  have hlte : Text.startsWith "$lte" "$" = true := by decide
  have hop : ∀ e ∈ [("$gte", low), ("$lte", high)], Text.startsWith e.1 "$" = true := by
    simp [hgte, hlte]
  rw [test_ofValue_operators (operators?_obj (by simp) hop (by simp [Keyed.get?_cons, ObjectId.fieldKey])),
    test_ofOperators_cons _ (by decide), test_ofOperators_cons _ (by decide), Test.ofOperators]
  rfl

theorem test_ofValue_not {v : Value} {ts : List Test} (h : Test.ofValue v = .ok ts) :
    Test.ofValue (.obj [("$not", v)]) = .ok [.not ts] := by
  have hnot : Text.startsWith "$not" "$" = true := by decide
  have hop : ∀ e ∈ [("$not", v)], Text.startsWith e.1 "$" = true := by
    simp [hnot]
  rw [test_ofValue_operators (operators?_obj (by simp) hop (by simp [Keyed.get?_cons, ObjectId.fieldKey])),
    Test.ofOperators]
  simp only [if_true, h]
  rw [Test.ofOperators]
  rfl

/-! ## The operators of comparators -/

def compiled (stored : Value → Value) (op : String) (operand : Value) : Comparator → Except Fault Compiled
  | eq => .ok (.equals (stored operand))
  | ne => .ok (.operators [("$ne", stored operand)])
  | gt => .ok (.operators [("$gt", stored operand)])
  | gte => .ok (.operators [("$gte", stored operand)])
  | lt => .ok (.operators [("$lt", stored operand)])
  | lte => .ok (.operators [("$lte", stored operand)])
  | isIn => .ok (.operators [("$in", .arr ((operands operand).map stored))])
  | notIn => .ok (.operators [("$nin", .arr ((operands operand).map stored))])
  | all => .ok (.operators [("$all", .arr ((operands operand).map stored))])
  | null => .ok (.equals .null)
  | notNull => .ok (.operators [("$ne", .null)])
  | present => .ok (.operators [("$exists", .bool (asks operand))])
  | size =>
    match length? operand with
    | some n => .ok (.operators [("$size", .ofNat n)])
    | none => .error (.query (.sizeValue operand))
  | between =>
    (Compiled.rangeBounds op operand).map fun b => .operators [("$gte", stored b.1), ("$lte", stored b.2)]
  | notBetween => (Compiled.rangeBounds op operand).map fun b =>
    .operators [("$not", .obj [("$gte", stored b.1), ("$lte", stored b.2)])]

/-- **Every spelling of a comparator compiles to the operators of that comparator.** -/
theorem ofOperator_eq {op : String} {rel : Comparator} (h : ofText? op = some rel) (r : KeyRule) (field : String)
    (operand : Value) : Compiled.ofOperator r field op operand = rel.compiled (r.storedValue field) op operand := by
  have hs : Text.lower (Text.trim op) ∈ rel.spellings := by simpa [lower_trim] using List.find?_some h
  unfold Compiled.ofOperator
  rw [Compiled.operandList_eq, Compiled.isTruthy_eq, Compiled.lengthOperand?_eq]
  generalize Text.lower (Text.trim op) = lowered at hs ⊢
  cases rel <;> simp only [spellings, List.mem_cons, List.not_mem_nil, or_false] at hs
  case eq => rcases hs with rfl | rfl <;> rfl
  case ne => rcases hs with rfl | rfl | rfl <;> rfl
  case gt => rcases hs with rfl | rfl <;> rfl
  case gte => rcases hs with rfl | rfl | rfl <;> rfl
  case lt => rcases hs with rfl | rfl <;> rfl
  case lte => rcases hs with rfl | rfl | rfl <;> rfl
  case isIn => subst hs; rfl
  case notIn => rcases hs with rfl | rfl <;> rfl
  case all => subst hs; rfl
  case null => subst hs; rfl
  case notNull => rcases hs with rfl | rfl <;> rfl
  case present => subst hs; rfl
  case size => subst hs; rfl
  case between => subst hs; rfl
  case notBetween => subst hs; rfl

/-! ## Conditions keep their reading -/

theorem allHold_one (t : Test) (v : Option Value) : Test.allHold [t] v = t.holds v := by
  rw [Test.allHold, Test.allHold, Bool.and_true]

theorem allHold_range (v : Option Value) (low high : Value) :
    Test.allHold [.gte low, .lte high] v = within v low high := by
  rw [Test.allHold, allHold_one, Test.holds, Test.holds]
  rfl

theorem rangeBounds_eq_ok {op : String} {operand : Value} {b : Value × Value}
    (h : Compiled.rangeBounds op operand = .ok b) : operands operand = [b.1, b.2] := by
  unfold Compiled.rangeBounds at h
  rw [Compiled.operandList_eq] at h
  split at h
  · rename_i low high hl
    cases h
    exact hl
  · cases h

def fieldValue? : Compiled → Option Value
  | .equals v => some v
  | .operators fs => some (.obj fs)
  | .document _ => none

theorem tests_of_operator {rel : Comparator} {stored : Value → Value} {operand : Value} {key : String} {v : Value}
    {t : Test} (hop : Text.startsWith key "$" = true) (hid : key ≠ ObjectId.fieldKey) (hnot : key ≠ "$not")
    (ht : Test.ofOperator [(key, v)] key v = .ok [t]) (hw : ∀ w, t.holds w = rel.holds stored operand w) :
    ∃ u ts, fieldValue? (.operators [(key, v)]) = some u ∧ Test.ofValue u = .ok ts ∧
      ∀ w, Test.allHold ts w = rel.holds stored operand w :=
  ⟨_, _, rfl, test_ofValue_operator hop hid hnot v ht, fun w => by rw [allHold_one, hw w]⟩

theorem holds_all (stored : Value → Value) (operand : Value) (w : Option Value) :
    (Test.all ((operands operand).map stored)).holds w = all.holds stored operand w := by
  simp only [Test.holds, holds]
  rcases w with _ | w
  · rfl
  · cases w with
    | arr xs =>
      simp only [Option.bind_some, Value.items?, Option.any_some, List.all_map]
      rfl
    | _ => rfl

theorem holds_size {stored : Value → Value} {operand : Value} {n : Nat} (hn : length? operand = some n)
    (w : Option Value) :
    (Test.size n).holds w = size.holds stored operand w := by
  simp only [Test.holds, holds]
  rcases w with _ | w
  · rfl
  · cases w with
    | arr xs =>
      simp only [Option.bind_some, Value.items?, Option.any_some, hn]
      rw [Bool.eq_iff_iff, beq_iff_eq, beq_iff_eq, Option.some.injEq]
      exact eq_comm
    | _ => rfl

/-- **The operators of a comparator read back as tests that say what the comparator says.** -/
theorem tests_of_compiled {rel : Comparator} {stored : Value → Value} {op : String} {operand : Value} {c : Compiled}
    (h : rel.compiled stored op operand = .ok c) (hplain : rel = eq → (stored operand).operators? = none) :
    ∃ v ts, fieldValue? c = some v ∧ Test.ofValue v = .ok ts ∧
      ∀ w, Test.allHold ts w = rel.holds stored operand w := by
  cases rel with
  | eq =>
    cases h
    exact ⟨_, _, rfl, test_ofValue_plain (hplain rfl), fun w => by rw [allHold_one, Test.holds, holds]⟩
  | null =>
    cases h
    exact ⟨_, _, rfl, test_ofValue_plain rfl, fun w => by rw [allHold_one, Test.holds, holds]⟩
  | between =>
    obtain ⟨b, hb, rfl⟩ := map_eq_ok.1 h
    refine ⟨_, _, rfl, test_ofValue_range _ _, fun w => ?_⟩
    rw [allHold_range, holds, rangeBounds_eq_ok hb]
  | notBetween =>
    obtain ⟨b, hb, rfl⟩ := map_eq_ok.1 h
    refine ⟨_, _, rfl, test_ofValue_not (test_ofValue_range _ _), fun w => ?_⟩
    rw [allHold_one, Test.holds, allHold_range, holds, rangeBounds_eq_ok hb]
  | isIn =>
    cases h
    refine tests_of_operator (by decide) (by decide) (by decide) rfl fun w => ?_
    rw [Test.holds, holds, List.any_map]
    rfl
  | notIn =>
    cases h
    refine tests_of_operator (by decide) (by decide) (by decide) rfl fun w => ?_
    rw [Test.holds, holds, List.any_map, List.not_any_eq_all_not]
    rfl
  | all =>
    cases h
    exact tests_of_operator (by decide) (by decide) (by decide) rfl (holds_all stored operand)
  | size =>
    simp only [compiled] at h
    split at h
    · rename_i n hn
      cases h
      have hread : Test.ofOperator [("$size", .ofNat n)] "$size" (.ofNat n) = .ok [.size n] := by
        simp [Test.ofOperator, Value.ofNat, Value.unsigned?]
      exact tests_of_operator (by decide) (by decide) (by decide) hread (holds_size hn)
    · cases h
  -- the other comparators have an operator of their own, with the operand as it is stored
  | _ =>
    cases h
    exact tests_of_operator (by decide) (by decide) (by decide) rfl fun w => by rw [Test.holds, holds]

theorem item_single_eq_ok {r : KeyRule} {field op : String} {operand item : Value}
    (h : r.item field (.single op operand) = .ok item) {v : Value}
    (hv : ∀ c, Compiled.ofOperator r (r.storedName field) op operand = .ok c → fieldValue? c = some v) :
    item = .obj [(r.storedName field, v)] := by
  simp only [KeyRule.item] at h
  obtain ⟨c, hc, h⟩ := bind_eq_ok.1 h
  have hv := hv c hc
  cases c with
  | equals w =>
    cases hv
    cases h
    rfl
  | operators fs =>
    cases hv
    cases h
    rfl
  | document w => cases hv

/-- **A condition by the operator of a comparator reads back as what the comparator says.** -/
theorem holdsOn_eq {r : KeyRule} {field op : String} {operand item : Value} {rel : Comparator}
    (hrel : ofText? op = some rel) (hs : Text.startsWith (r.storedName field) "$" = false)
    (heq : rel = eq → operand.operators? = none) (h : r.item field (.single op operand) = .ok item) :
    Filter.Readable item ∧ ∀ doc, r.holdsOn (.single op operand) doc field =
      rel.holds (r.storedValue (r.storedName field)) operand (doc.path? (r.storedName field)) := by
  have hitem := h
  simp only [KeyRule.item] at h
  obtain ⟨c, hc, -⟩ := bind_eq_ok.1 h
  rw [ofOperator_eq hrel] at hc
  obtain ⟨v, ts, hv, hts, hholds⟩ := tests_of_compiled hc fun e => operators?_storedValue r _ (heq e)
  have hobj : item = .obj [(r.storedName field, v)] := item_single_eq_ok hitem fun c' hc' => by
    rw [ofOperator_eq hrel, hc] at hc'
    cases hc'
    exact hv
  have hread := ofValue_field hs hts
  rw [← hobj] at hread
  refine ⟨⟨_, hread⟩, fun doc => ?_⟩
  unfold KeyRule.holdsOn
  rw [hitem]
  simp only
  rw [Filter.meaning_of_ofValue hread, Filter.holds_cons, Filter.holds_nil, Bool.and_true, Filter.clauseHolds, hholds]

theorem IsPlain.isNamed {r : KeyRule} {e : Filed (Condition Scope)} (h : IsPlain r e.2) : KeyRule.IsNamed e := by
  obtain ⟨l, e⟩ := e
  obtain ⟨field, op, operand, rel, rfl, -⟩ := h
  exact ⟨l, field, _, rfl⟩

theorem IsPlain.targetOf {r : KeyRule} {e : Filed (Condition Scope)} (h : IsPlain r e.2) :
    KeyRule.targetOf e = e.1.junction := by
  obtain ⟨l, e⟩ := e
  obtain ⟨field, op, operand, rel, rfl, -, hbar, hamp, -⟩ := h
  simp [KeyRule.targetOf, KeyRule.target, hbar, hamp]

theorem IsPlain.answers {r : KeyRule} {scope : Scope} {e : Filed (Condition Scope)} (h : IsPlain r e.2)
    {items : Contribution} (hc : r.contributes scope e = .ok items) :
    (∀ i ∈ items, Filter.Readable i.2) ∧ ∀ doc, r.answers doc e = [clauseHolds r doc e.2] := by
  obtain ⟨l, e⟩ := e
  obtain ⟨field, op, operand, rel, rfl, hrel, hbar, hamp, hs, heq⟩ := h
  have hfields : KeyRule.fieldsOf field = [field] := by simp [KeyRule.fieldsOf, hbar, hamp]
  simp only [KeyRule.contributes, KeyRule.contribution] at hc
  rw [KeyRule.plainContribution_some, hfields, KeyRule.items] at hc
  obtain ⟨item, hitem, hc⟩ := bind_eq_ok.1 hc
  cases hc
  obtain ⟨hread, hholds⟩ := holdsOn_eq hrel hs heq hitem
  refine ⟨by simpa using hread, fun doc => ?_⟩
  simp only [KeyRule.answers, hfields, clauseHolds, hrel, List.map_cons, List.map_nil, hholds doc]

end Comparator

namespace KeyRule

open Comparator (IsPlain clauseHolds)

theorem answers_under {r : KeyRule} {scope : Scope} (doc : Value) (l : Logic) :
    ∀ {es : List (Filed (Condition Scope))}, (∀ e ∈ es, IsPlain r e.2) →
      (∀ e ∈ es, ∃ items, r.contributes scope e = .ok items) →
      (es.filter (targetOf · = l.junction)).flatMap (r.answers doc)
        = ((es.filter (·.1 = l)).map Prod.snd).map (clauseHolds r doc)
  | [], _, _ => rfl
  | e :: es, hp, hc => by
    obtain ⟨hpe, hp⟩ := List.forall_mem_cons.1 hp
    obtain ⟨⟨items, hitems⟩, hc⟩ := List.forall_mem_cons.1 hc
    have hiff : targetOf e = l.junction ↔ e.1 = l := by
      rw [hpe.targetOf]
      constructor
      · intro h
        cases he : e.1 <;> cases l <;> simp_all [Logic.junction]
      · rintro rfl
        rfl
    rw [List.filter_cons, List.filter_cons]
    by_cases h : e.1 = l
    · simp only [hiff.2 h, h, decide_true, if_true, List.flatMap_cons, List.map_cons, (hpe.answers hitems).2 doc,
        answers_under doc l hp hc, List.singleton_append]
    · simp only [hiff, h, decide_false, Bool.false_eq_true, if_false]
      exact answers_under doc l hp hc

/-- **Compiling a filter keeps its meaning**: if plain conditions compile, the store reads the document, and it holds
on a document just if all conditions of the first group do, one of the second group does if it has any, and exactly
one of the third group does if it has any. -/
theorem compileFilter_keeps_meaning (r : KeyRule) (q : Request) (hp : ∀ e ∈ q.filter.entries, IsPlain r e.2)
    {fs : Fields} (h : r.compileFilter q = .ok fs) :
    ∃ f, Filter.ofValue (.obj fs) = .ok f ∧ ∀ doc, f.holds doc = true ↔
      (∀ e ∈ q.filter.under .and, clauseHolds r doc e = true) ∧
      (q.filter.under .or = [] ∨ ∃ e ∈ q.filter.under .or, clauseHolds r doc e = true) ∧
      (q.filter.under .xor = [] ∨ (q.filter.under .xor).countP (clauseHolds r doc) = 1) := by
  have hc := (compileFilter_eq_ok.1 h).1
  obtain ⟨f, hf⟩ := (readable_iff r q).2 fun e he => by
    obtain ⟨items, hitems⟩ := hc e he
    exact ⟨items, hitems, ((hp e he).answers hitems).1⟩
  have hf' := hf
  rw [readFilter, h] at hf'
  refine ⟨f, hf', fun doc => ?_⟩
  rw [holds_iff_answers (fun e he => (hp e he).isNamed) hf doc]
  have hunder := fun l => answers_under doc l hp hc
  have hnor : q.filter.entries.filter (targetOf · = Junction.nor) = [] := by
    rw [List.filter_eq_nil_iff]
    intro e he
    rw [(hp e he).targetOf]
    cases e.1 <;> simp [Logic.junction]
  rw [Junction.forall_iff, hnor]
  have hand : (q.filter.entries.filter (targetOf · = Junction.and)).flatMap (r.answers doc) = _ := hunder .and
  have hor : (q.filter.entries.filter (targetOf · = Junction.or)).flatMap (r.answers doc) = _ := hunder .or
  have hxor : (q.filter.entries.filter (targetOf · = Junction.xor)).flatMap (r.answers doc) = _ := hunder .xor
  rw [hand, hor, hxor, Junction.admits_and, Junction.admits_or, Junction.admits_xor]
  simp only [List.flatMap_nil, Junction.admits_nil, and_true, Where.under]

def mixedConditions : Where (Condition Scope) :=
  [(.and, [(some "id", .plain (.single "=" (.str "5F1D7A3B9C2E4A0012345678"))),
      (some " age ", .plain (.single " Between" (.arr [.int 18, .int 65]))),
      (some "rank", .plain (.single "in" (.int 5)))]),
    (.or, [(some "city", .plain (.single "not in" (.str "NYC,, LA "))),
      (some "tags", .plain (.single "size" (.str "+2")))]),
    (.xor, [(some "address.zip", .plain (.single "null" (.str ""))),
      (some "phone", .plain (.single "exists" (.int 1)))])]

def mixedDocument : Fields :=
  [("$and", .arr [.obj [("_id", .obj [("$oid", .str "5f1d7a3b9c2e4a0012345678")])],
      .obj [("age", .obj [("$gte", .int 18), ("$lte", .int 65)])], .obj [("rank", .obj [("$in", .arr [.int 5])])]]),
    ("$or", .arr [.obj [("city", .obj [("$nin", .arr [.str "NYC", .str "LA"])])],
      .obj [("tags", .obj [("$size", .int 2)])]]),
    ("$xor", .arr [.obj [("address.zip", .null)], .obj [("phone", .obj [("$exists", .bool true)])]])]

def resident (city : String) (phone : Fields) : Value :=
  .obj ([("_id", .obj [("$oid", .str "5f1d7a3b9c2e4a0012345678")]), ("age", .int 30), ("rank", .int 5),
    ("city", .str city), ("address", .obj [("zip", .str "10001")])] ++ phone)

theorem compileFilter_keeps_meaning_mixed :
    Comparator.operands (.str "NYC,, LA ") = [.str "NYC", .str "LA"] ∧ Comparator.operands (.int 5) = [.int 5] ∧
    (∀ e ∈ mixedConditions.entries, IsPlain ⟨true, .native⟩ e.2) ∧
    compileFilter ⟨true, .native⟩ { filter := mixedConditions } = .ok mixedDocument ∧
    ∃ f, Filter.ofValue (.obj mixedDocument) = .ok f ∧
      (∀ doc, f.holds doc = true ↔
        (∀ e ∈ mixedConditions.under .and, clauseHolds ⟨true, .native⟩ doc e = true) ∧
        (mixedConditions.under .or = [] ∨ ∃ e ∈ mixedConditions.under .or, clauseHolds ⟨true, .native⟩ doc e = true) ∧
        (mixedConditions.under .xor = [] ∨
          (mixedConditions.under .xor).countP (clauseHolds ⟨true, .native⟩ doc) = 1)) ∧
      f.holds (resident "Rome" [("phone", .str "1")]) = true ∧ f.holds (resident "LA" [("phone", .str "1")]) = false ∧
      f.holds (resident "Rome" []) = false := by
  have hp : ∀ e ∈ mixedConditions.entries, IsPlain ⟨true, .native⟩ e.2 := by
    simp only [mixedConditions, Where.entries_cons, Where.entries_nil, List.map_cons, List.map_nil, List.cons_append,
      List.nil_append, List.forall_mem_cons, List.not_mem_nil, false_imp_iff, implies_true, and_true]
    refine ⟨⟨_, _, _, .eq, rfl, by decide, by decide, by decide, by decide, fun _ => rfl⟩,
      ⟨_, _, _, .between, rfl, by decide, by decide, by decide, by decide, by decide⟩,
      ⟨_, _, _, .isIn, rfl, by decide, by decide, by decide, by decide, by decide⟩,
      ⟨_, _, _, .notIn, rfl, by decide, by decide, by decide, by decide, by decide⟩,
      ⟨_, _, _, .size, rfl, by decide, by decide, by decide, by decide, by decide⟩,
      ⟨_, _, _, .null, rfl, by decide, by decide, by decide, by decide, by decide⟩,
      ⟨_, _, _, .present, rfl, by decide, by decide, by decide, by decide, by decide⟩⟩
  have h : compileFilter ⟨true, .native⟩ { filter := mixedConditions } = .ok mixedDocument := rfl
  obtain ⟨f, hf, hholds⟩ := compileFilter_keeps_meaning _ _ hp h
  refine ⟨rfl, rfl, hp, h, f, hf, hholds, ?_, ?_, ?_⟩ <;> cases hf <;> rfl

end KeyRule

end DocQuery
