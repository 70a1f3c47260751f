import DocQuery.Proofs.Comparators

/-!
# Requests with a single condition

The filter of a request with one condition on a field has the item of the condition as its only branch
(`KeyRule.readFilter_alone`).  So it holds under every combinator where the item does, and where the value of the item
accepts the one that the document has there (`KeyRule.holdsAlone_iff`).
-/
namespace DocQuery

namespace Test

/-- A value is read as tests which all hold on another one, that may be missing. -/
def Accepts (v : Value) (x : Option Value) : Prop := ∃ ts, ofValue v = .ok ts ∧ allHold ts x = true

def ofEntry (all : Fields) (e : String × Value) : Except Fault (List Test) :=
  if e.1 = "$not" then (ofValue e.2).map fun ts => [Test.not ts] else ofOperator all e.1 e.2

theorem ofOperators_cons (all : Fields) (e : String × Value) (es : List (String × Value)) :
    ofOperators all (e :: es) = ofEntry all e >>= fun first => (ofOperators all es).map (first ++ ·) := by
  obtain ⟨op, v⟩ := e
  rw [ofOperators, ofEntry]
  by_cases hop : op = "$not"
  · rw [if_pos hop, if_pos hop]
    rfl
  · rw [if_neg hop, if_neg hop]
    rfl

end Test

theorem Filter.holds_branch (l : Logic) (f : Filter) (doc : Value) :
    Filter.holds [.junction l.junction [f]] doc = f.holds doc := by
  rw [holds_cons, holds_nil, Bool.and_true]
  cases l <;> simp only [Logic.junction, clauseHolds, countHolding, holds] <;> cases allHold doc f <;> rfl

theorem Filter.holds_field (l : Logic) (stored : String) (ts : List Test) (doc : Value) :
    Filter.holds [.junction l.junction [[.field stored ts]]] doc = Test.allHold ts (doc.path? stored) := by
  rw [holds_branch, holds_cons, holds_nil, Bool.and_true, clauseHolds]

namespace KeyRule

def alone (l : Logic) (field : String) (c : Comparison) : Request := { filter := [(l, [(some field, .plain c)])] }

/-- The filter of a condition alone is read, and holds on a document. -/
def HoldsAlone (r : KeyRule) (l : Logic) (field : String) (c : Comparison) (doc : Value) : Prop :=
  ∃ f, r.readFilter (alone l field c) = .ok f ∧ f.holds doc = true

section

variable {r : KeyRule} {field : String} (hbar : Text.hasChar '|' field = false)
  (hamp : Text.hasChar '&' field = false)

include hbar hamp

/-- **The item of a condition is the only branch of its filter.** -/
theorem readFilter_alone (l : Logic) (c : Comparison) : r.readFilter (alone l field c) =
    r.item field c >>= fun item => (Filter.ofValue item).map fun f => [.junction l.junction [f]] := by
  have hcontributes : r.contributes (alone l field c).toScope (l, some field, .plain c) =
      (r.item field c).map fun item => [(l.junction.key, item)] := by
    simp only [contributes, contribution, plainContribution, hbar, hamp, Bool.false_eq_true, if_false, items,
      Logic.key_junction]
    cases r.item field c <;> rfl
  have hentries : (alone l field c).filter.entries = [(l, some field, .plain c)] := rfl
  rw [readFilter, compileFilter_eq, hentries, List.map_singleton, hcontributes]
  cases r.item field c with
  | error e => rfl
  | ok item =>
    show Filter.ofValue (.obj [(l.junction.key, .arr [item])]) = (Filter.ofValue item).map _
    rw [Filter.ofValue_obj, Filter.ofFields_cons, Filter.readField_key, Filter.ofBranches_cons, Filter.ofBranches,
      Filter.ofFields]
    cases Filter.ofValue item <;> rfl

theorem holdsAlone_iff_holdsOn (l : Logic) (c : Comparison) (doc : Value) :
    r.HoldsAlone l field c doc ↔ r.holdsOn c doc field = true := by
  rw [HoldsAlone, readFilter_alone hbar hamp, holdsOn]
  cases r.item field c with
  | error e => simp [Bind.bind, Except.bind]
  | ok item =>
    show (∃ f, (Filter.ofValue item).map _ = .ok f ∧ _) ↔ Filter.meaning item doc = true
    rw [Filter.meaning]
    cases Filter.ofValue item with
    | error e => simp [Except.map]
    | ok f => simp only [Except.map, Except.ok.injEq, exists_eq_left', Filter.holds_branch]

/-- **A condition alone holds where the value of its item accepts what the document has there.** -/
theorem holdsAlone_iff (l : Logic) {c : Comparison} {v : Value}
    (hitem : r.item field c = .ok (.obj [(r.storedName field, v)]))
    (hs : Text.startsWith (r.storedName field) "$" = false) (doc : Value) :
    r.HoldsAlone l field c doc ↔ Test.Accepts v (doc.path? (r.storedName field)) := by
  rw [HoldsAlone, readFilter_alone hbar hamp, hitem]
  show (∃ f, (Filter.ofValue _).map _ = .ok f ∧ _) ↔ _
  rw [Comparator.ofValue_single hs, Test.Accepts]
  cases Test.ofValue v with
  | error e => simp [Except.map]
  | ok ts =>
    simp only [Except.map, Except.ok.injEq, exists_eq_left', Filter.holds_field]

end

end KeyRule

end DocQuery
