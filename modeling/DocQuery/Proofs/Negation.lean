import DocQuery.Proofs.FieldLists
import DocQuery.Proofs.Predicates
import DocQuery.Proofs.SingleCondition
import DocQuery.Proofs.Unconditioned
import DocQuery.Request.Filters

/-!
# Negated predicates

The conditions of a negated predicate are compiled to one document, which is the only branch of its `$nor`
(`KeyRule.readFilter_not`).  So what is negated is that all of them hold: a document passes if it fails one, and passes
all others (`KeyRule.negation_excludes_iff`).
-/
namespace DocQuery

def Request.predicated (q : Request) (p : Predicate) : Request :=
  { q with filter := (p q.toScope).foldl Where.add [] }

namespace KeyRule

variable {r : KeyRule} {q : Request}

/-- **A negated predicate compiles to one negated branch**, if it has a condition. -/
theorem readFilter_not (hq : q.filter = []) (p : Predicate) : r.readFilter (q.filterNot p) =
    r.compileFilter (q.predicated p) >>= fun fs =>
      if fs.isEmpty then .ok [] else (Filter.ofValue (.obj fs)).map fun f => [.junction .nor [f]] := by
  have hentries : (q.filterNot p).filter.entries = [(.and, none, .deferred (some "not") p)] := by
    rw [Request.filterNot, Request.addFilter, hq]
    rfl
  have hcontributes : r.contributes q.toScope (.and, none, .deferred (some "not") p) =
      nestedContribution .and (some "not") (r.compileFilter (q.predicated p)) := by
    rw [contributes, contribution_deferred, compileCalls_eq]
    rfl
  have hscope : (q.filterNot p).toScope = q.toScope := rfl
  rw [readFilter, compileFilter_eq, hentries, List.map_singleton, hscope, hcontributes]
  cases r.compileFilter (q.predicated p) with
  | error e => rfl
  | ok fs =>
    cases fs with
    | nil => rfl
    | cons e fs =>
      show Filter.ofValue (.obj [(Junction.nor.key, .arr [.obj (e :: fs)])]) =
        (Filter.ofValue (.obj (e :: fs))).map fun f => [.junction .nor [f]]
      rw [Filter.ofValue_obj [_], Filter.ofFields_cons, Filter.readField_key, Filter.ofBranches_cons,
        Filter.ofBranches, Filter.ofFields]
      cases Filter.ofValue (.obj (e :: fs)) <;> rfl

def IsPlainAnd (e : Filed (Condition Scope)) : Prop :=
  ∃ field c, e = (.and, some field, .plain c) ∧ Text.hasChar '|' field = false ∧ Text.hasChar '&' field = false

/-- A document satisfies a condition on a field: the filter of the condition alone holds on it. -/
def Satisfies (r : KeyRule) (doc : Value) : Filed (Condition Scope) → Prop
  | (_, some field, .plain c) => r.HoldsAlone .and field c doc
  | _ => False

/-- **Conditions of the first group hold together where each of them does.** -/
theorem holds_iff_satisfies {g : Filter} (hplain : ∀ e ∈ q.filter.entries, IsPlainAnd e)
    (hg : r.readFilter q = .ok g) (doc : Value) :
    g.holds doc = true ↔ ∀ e ∈ q.filter.entries, r.Satisfies doc e := by
  have hnamed : ∀ e ∈ q.filter.entries, IsNamed e := fun e he => by
    obtain ⟨field, c, rfl, -⟩ := hplain e he
    exact ⟨.and, field, c, rfl⟩
  have htarget : ∀ e ∈ q.filter.entries, targetOf e = .and := fun e he => by
    obtain ⟨field, c, rfl, hbar, hamp⟩ := hplain e he
    rw [targetOf, target, hbar, hamp]
    rfl
  have hothers : ∀ j : Junction, j ≠ .and → q.filter.entries.filter (targetOf · = j) = [] := fun j hj =>
    List.filter_eq_nil_iff.2 fun e he => by
      rw [htarget e he]
      exact fun h => hj (of_decide_eq_true h).symm
  have hall : q.filter.entries.filter (targetOf · = .and) = q.filter.entries :=
    List.filter_eq_self.2 fun e he => decide_eq_true (htarget e he)
  rw [holds_iff_answers hnamed hg, Junction.forall_iff, hall, hothers .or (by decide),
    hothers .xor (by decide), hothers .nor (by decide)]
  simp only [List.flatMap_nil, Junction.admits_nil, and_true]
  have hanswers : ∀ e ∈ q.filter.entries, (∀ b ∈ r.answers doc e, b = true) ↔ r.Satisfies doc e := fun e he => by
    obtain ⟨field, c, rfl, hbar, hamp⟩ := hplain e he
    rw [answers, fieldsOf, hbar, hamp, Satisfies, holdsAlone_iff_holdsOn hbar hamp]
    exact List.forall_mem_singleton
  constructor
  · exact fun h e he => (hanswers e he).1 fun b hb => h b (List.mem_flatMap.2 ⟨e, he, hb⟩)
  · intro h b hb
    obtain ⟨e, he, hb⟩ := List.mem_flatMap.1 hb
    exact (hanswers e he).2 (h e he) b hb

/-- **A negated predicate holds where some condition does not**, or where there is none. -/
theorem holds_filterNot_iff (hq : q.filter = []) {p : Predicate}
    (hplain : ∀ e ∈ (q.predicated p).filter.entries, IsPlainAnd e) {f : Filter}
    (hf : r.readFilter (q.filterNot p) = .ok f) (doc : Value) : f.holds doc = true ↔
      (q.predicated p).filter.entries = [] ∨ ∃ e ∈ (q.predicated p).filter.entries, ¬ r.Satisfies doc e := by
  obtain ⟨fs, hfs, hread⟩ := bind_eq_ok.1 ((readFilter_not hq p).symm.trans hf)
  cases hnone : fs with
  | nil =>
    have hempty : (q.predicated p).filter.entries = [] := List.eq_nil_iff_forall_not_mem.2 fun e he => by
      obtain ⟨field, c, rfl, -⟩ := hplain e he
      exact contributes_plain_ne_nil _ _ _ _ _ (compileFilter_eq_nil.1 (hnone ▸ hfs) _ he)
    rw [hnone] at hread
    obtain rfl : [] = f := Except.ok.inj hread
    exact ⟨fun _ => .inl hempty, fun _ => Filter.holds_nil doc⟩
  | cons e rest =>
    have hsome : (q.predicated p).filter.entries ≠ [] := fun hempty => by
      have hnil : r.compileFilter (q.predicated p) = .ok [] := compileFilter_eq_nil.2 fun e he => by
        rw [hempty] at he
        cases he
      rw [hnone, hnil] at hfs
      cases hfs
    rw [hnone] at hread
    obtain ⟨g, hg, rfl⟩ := map_eq_ok.1 (hread : (Filter.ofValue (.obj (e :: rest))).map _ = .ok f)
    have hinner : r.readFilter (q.predicated p) = .ok g := bind_eq_ok.2 ⟨_, hnone ▸ hfs, hg⟩
    have hnor : Filter.holds [.junction .nor [g]] doc = !g.holds doc := by
      rw [Filter.holds_cons, Filter.holds_nil, Bool.and_true]
      simp only [Filter.clauseHolds, Filter.countHolding, Filter.holds]
      cases Filter.allHold doc g <;> rfl
    rw [hnor, Bool.not_eq_true', ← Bool.not_eq_true, holds_iff_satisfies hplain hinner]
    simp only [not_forall, hsome, false_or, exists_prop]

/-- A negated predicate lets no document pass that satisfies one of its conditions. -/
def ExcludesEach (r : KeyRule) (w : Where (Condition Scope)) (f : Filter) : Prop :=
  ∀ doc, f.holds doc = true → ∀ e ∈ w.entries, ¬ r.Satisfies doc e

/-- **A negated predicate excludes each of its conditions just if all of them say the same.**  A document passes just
if there is no condition, or some condition is not satisfied; so a single condition is excluded. -/
theorem negation_excludes_iff (r : KeyRule) {q : Request} (hq : q.filter = []) (p : Predicate)
    (hplain : ∀ e ∈ (q.predicated p).filter.entries, IsPlainAnd e) {f : Filter}
    (hf : r.readFilter (q.filterNot p) = .ok f) :
    (∀ doc, f.holds doc = true ↔ (q.predicated p).filter.entries = [] ∨
      ∃ e ∈ (q.predicated p).filter.entries, ¬ r.Satisfies doc e) ∧
    (r.ExcludesEach (q.predicated p).filter f ↔ ∀ e ∈ (q.predicated p).filter.entries,
      ∀ e' ∈ (q.predicated p).filter.entries, ∀ doc, r.Satisfies doc e → r.Satisfies doc e') ∧
    ((q.predicated p).filter.entries.length ≤ 1 → r.ExcludesEach (q.predicated p).filter f) := by
  have hholds := holds_filterNot_iff hq hplain hf
  have hsame : r.ExcludesEach (q.predicated p).filter f ↔ ∀ e ∈ (q.predicated p).filter.entries,
      ∀ e' ∈ (q.predicated p).filter.entries, ∀ doc, r.Satisfies doc e → r.Satisfies doc e' := by
    constructor
    · intro hexcludes e he e' he' doc hsat
      by_contra hnot
      exact hexcludes doc ((hholds doc).2 (.inr ⟨e', he', hnot⟩)) e he hsat
    · intro hsame doc hdoc e he hsat
      rcases (hholds doc).1 hdoc with hempty | ⟨e', he', hnot⟩
      · rw [hempty] at he
        cases he
      · exact hnot (hsame e he e' he' doc hsat)
  refine ⟨hholds, hsame, fun hone => hsame.2 fun e he e' he' doc hsat => ?_⟩
  rw [← eq_of_mem_of_mem hone he he']
  exact hsat

def isDeleted : Predicate := fun _ => [.name .and "deleted" (some (.str "=")) (some (.bool true))]

theorem negation_excludes_iff_isDeleted : ({} : Request).filter = [] ∧
    (∀ e ∈ (({} : Request).predicated isDeleted).filter.entries, IsPlainAnd e) ∧
    ∃ f, readFilter ⟨true, .native⟩ (({} : Request).filterNot isDeleted) = .ok f ∧
      ExcludesEach ⟨true, .native⟩ (({} : Request).predicated isDeleted).filter f := by
  have hentries : (({} : Request).predicated isDeleted).filter.entries =
      [(.and, some "deleted", .plain (.single "=" (.bool true)))] := by
    rfl
  have hplain : ∀ e ∈ (({} : Request).predicated isDeleted).filter.entries, IsPlainAnd e := by
    rw [hentries]
    exact List.forall_mem_singleton.2 ⟨"deleted", _, rfl, by decide, by decide⟩
  obtain ⟨f, hf⟩ : ∃ f, readFilter ⟨true, .native⟩ (({} : Request).filterNot isDeleted) = .ok f := ⟨_, rfl⟩
  obtain ⟨-, -, hone⟩ := negation_excludes_iff ⟨true, .native⟩ rfl isDeleted hplain hf
  exact ⟨rfl, hplain, f, hf, hone (by rw [hentries]; exact Nat.le_refl 1)⟩

def isBoth : Predicate := fun _ =>
  [.name .and "a" (some (.str "=")) (some (.int 1)), .name .and "b" (some (.str "=")) (some (.int 2))]

/-- **A document that satisfies one of two negated conditions passes**, if it fails the other. -/
theorem negation_keeps_half :
    ∃ f, readFilter ⟨false, .native⟩ (({} : Request).filterNot isBoth) = .ok f ∧
      f.holds (.obj [("a", .int 1), ("b", .int 3)]) = true ∧
      HoldsAlone ⟨false, .native⟩ .and "a" (.single "=" (.int 1)) (.obj [("a", .int 1), ("b", .int 3)]) ∧
      ¬ ExcludesEach ⟨false, .native⟩ (({} : Request).predicated isBoth).filter f := by
  have hread : readFilter ⟨false, .native⟩ (({} : Request).filterNot isBoth) =
      .ok [.junction .nor [[.junction .and [[.field "a" [.eq (.int 1)]], [.field "b" [.eq (.int 2)]]]]]] := by
    rfl
  have hone : readFilter ⟨false, .native⟩ (alone .and "a" (.single "=" (.int 1))) =
      .ok [.junction .and [[.field "a" [.eq (.int 1)]]]] := rfl
  have hfirst : HoldsAlone ⟨false, .native⟩ .and "a" (.single "=" (.int 1)) (.obj [("a", .int 1), ("b", .int 3)]) :=
    ⟨_, hone, rfl⟩
  have hmem : (Logic.and, some "a", Condition.plain (Comparison.single "=" (.int 1))) ∈
      (({} : Request).predicated isBoth).filter.entries := List.mem_cons_self
  exact ⟨_, hread, rfl, hfirst, fun h => h _ rfl _ hmem hfirst⟩

end KeyRule

end DocQuery
