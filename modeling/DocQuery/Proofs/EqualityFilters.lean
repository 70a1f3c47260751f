import DocQuery.Proofs.Conditions
import DocQuery.Request.Filters

/-!
# Two ways to filter by a value

A value alone and a field of an object stand for the same condition (`Request.equality_filters_agree_iff`), but for
texts that name a null test: alone they are that test, as fields they are compared with
(`Request.null_text_is_two_filters`).
-/
namespace DocQuery

namespace FilterCall

def nullTest? (v : Value) : Option String := v.str?.filter isNullTest

theorem nullTest?_eq_some {v : Value} {test : String} :
    nullTest? v = some test ↔ v = .str test ∧ isNullTest test = true := by
  cases v with
  | str s => simp [nullTest?, Value.str?, Option.filter_eq_some_iff]
  | _ => simp [nullTest?, Value.str?]

/-- What a value alone is as a condition. -/
def loneComparison (v : Value) : Comparison :=
  match nullTest? v with
  | some test => .single test (.str "")
  | none => .ofValue v

/-- **A value alone files its condition on the field.** -/
theorem nameEntries_value (field : String) (v : Value) :
    nameEntries field (some v) none = [(some field, loneComparison v)] := by
  cases v with
  | str s =>
    simp only [nameEntries, loneComparison, nullTest?, Comparison.ofValue]
    cases Option.filter isNullTest (Value.str s).str? with
    | none => rfl
    | some test => rfl
  | _ => rfl

theorem loneComparison_eq_iff {v : Value} : loneComparison v = .ofValue v ↔ nullTest? v = none := by
  cases h : nullTest? v with
  | none => simp [loneComparison, h]
  | some test =>
    obtain ⟨rfl, htest⟩ := nullTest?_eq_some.1 h
    simp only [loneComparison, h, Comparison.ofValue, Comparison.eq, Comparison.single.injEq, Value.str.injEq]
    -- the test would have to be the operator of an equality
    refine iff_of_false (fun heq => ?_) nofun
    rw [heq.1] at htest
    exact absurd htest (by decide)

end FilterCall

namespace Request

open FilterCall (nullTest? loneComparison)

def conditionOn (q : Request) (l : Logic) (field : String) : Option (Condition Scope) :=
  (Keyed.get? q.filter l).bind (Group.get? · field)

def fileOn (q : Request) (field : String) (c : Comparison) : Request :=
  { q with filter := q.filter.file .and [(some field, .plain c)] }

theorem conditionOn_fileOn (q : Request) (field : String) (c : Comparison) :
    (q.fileOn field c).conditionOn .and field = some (.plain c) := by
  show (Keyed.get? (Keyed.set q.filter .and _) .and).bind (Group.get? · field) = _
  rw [Keyed.get?_set_self]
  exact Keyed.get?_set_self _ _ _

theorem filterEq_eq (q : Request) (field : String) (v : Value) :
    q.filterEq field v = q.fileOn field (loneComparison v) := by
  rw [filterEq, addFilter, Where.add, FilterCall.entries, FilterCall.nameEntries_value]
  rfl

theorem filterAll_eq (q : Request) (field : String) (v : Value) :
    q.filterAll [(field, v)] = q.fileOn field (.ofValue v) := rfl

/-- **A filter by a value and a filter by an object with that value agree just if the value names no null test.**  Both
file one condition on the field, the object what the value stands for, the value alone the test if it names one. -/
theorem equality_filters_agree_iff (q : Request) (field : String) (v : Value) :
    (q.filterEq field v = q.filterAll [(field, v)] ↔ ¬ ∃ test, v = .str test ∧ FilterCall.isNullTest test = true) ∧
    (q.filterAll [(field, v)]).conditionOn .and field = some (.plain (.ofValue v)) ∧
    ∀ test, v = .str test → FilterCall.isNullTest test = true →
      (q.filterEq field v).conditionOn .and field = some (.plain (.single test (.str ""))) := by
  rw [filterEq_eq, filterAll_eq]
  refine ⟨?_, conditionOn_fileOn _ _ _, fun test hv htest => ?_⟩
  · have hnames : nullTest? v = none ↔ ¬ ∃ test, v = .str test ∧ FilterCall.isNullTest test = true := by
      rw [Option.eq_none_iff_forall_ne_some, not_exists]
      exact forall_congr' fun test => not_congr FilterCall.nullTest?_eq_some
    rw [← hnames, ← FilterCall.loneComparison_eq_iff]
    refine ⟨fun heq => ?_, fun heq => by rw [heq]⟩
    have hsame := congrArg (conditionOn · .and field) heq
    simp only [conditionOn_fileOn, Option.some.injEq, Condition.plain.injEq] at hsame
    exact hsame
  · rw [conditionOn_fileOn, loneComparison, FilterCall.nullTest?_eq_some.2 ⟨hv, htest⟩]

/-- **The text `null` is two filters**: alone it asks for rows without a value, as a field of an object for those with
that text. -/
theorem null_text_is_two_filters :
    ({} : Request).filterEq "a" (.str "null") ≠ ({} : Request).filterAll [("a", .str "null")] ∧
    ∃ f g, (KeyRule.mk false .supplied).readFilter (({} : Request).filterEq "a" (.str "null")) = .ok f ∧
      (KeyRule.mk false .supplied).readFilter (({} : Request).filterAll [("a", .str "null")]) = .ok g ∧
      f.holds (.obj [("a", .str "null")]) = false ∧ g.holds (.obj [("a", .str "null")]) = true := by
  refine ⟨fun heq => ?_, _, _, rfl, rfl, rfl, rfl⟩
  have hcompiled := congrArg (KeyRule.mk false .supplied).compileFilter heq
  have hfields : [("$and", Value.arr [.obj [("a", .null)]])] = [("$and", .arr [.obj [("a", .str "null")]])] :=
    Except.ok.inj hcompiled
  simp at hfields

end Request

end DocQuery
