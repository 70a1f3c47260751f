import DocQuery.Proofs.Conditions

/-!
# Deferred predicates

The calls of a predicate are compiled while they are filed.  That comes to filing them as any calls and compiling the
tree behind (`KeyRule.compileCalls_eq`): filing only looks at the combinators and the fields of what it files.
-/
namespace DocQuery

namespace Group

variable {α β : Type}

theorem mapValues_set (f : Option String → α → β) (g : Group α) (field : Option String) (c : α) :
    Keyed.mapValues f (set g field c) = set (Keyed.mapValues f g) field (f field c) := by
  cases field with
  | none => exact List.map_append
  | some name => exact Keyed.mapValues_set f g (some name) c

theorem mapValues_setAll (f : Option String → α → β) : ∀ (es g : Group α),
    Keyed.mapValues f (setAll g es) = setAll (Keyed.mapValues f g) (Keyed.mapValues f es)
  | [], _ => rfl
  | e :: es, g => by
    have hstep : setAll g (e :: es) = setAll (set g e.1 e.2) es := rfl
    rw [hstep, mapValues_setAll f es, mapValues_set]
    rfl

end Group

namespace Where

variable {α β : Type}

def mapEntries (f : Logic → Option String → α → β) (w : Where α) : Where β :=
  Keyed.mapValues (fun l g => Keyed.mapValues (f l) g) w

/-- **Filing does not look at the contents.** -/
theorem mapEntries_file (f : Logic → Option String → α → β) (w : Where α) (l : Logic) (es : Group α) :
    (w.file l es).mapEntries f = (w.mapEntries f).file l (Keyed.mapValues (f l) es) := by
  cases es with
  | nil => rfl
  | cons e es =>
    have hfile : ∀ {γ : Type} (w : Where γ) (e : Option String × γ) (es : Group γ),
        w.file l (e :: es) = Keyed.set w l (Group.setAll ((Keyed.get? w l).getD []) (e :: es)) := fun _ _ _ => rfl
    have hcons : Keyed.mapValues (f l) (e :: es) = (e.1, f l e.1 e.2) :: Keyed.mapValues (f l) es := rfl
    rw [hcons, hfile, hfile, mapEntries, Keyed.mapValues_set, Group.mapValues_setAll, hcons, mapEntries,
      Keyed.get?_mapValues]
    cases Keyed.get? w l <;> rfl

end Where

namespace KeyRule

theorem contribution_deferred (r : KeyRule) (scope : Scope) (logic : Logic) (field op : Option String)
    (predicate : Predicate) : r.contribution scope logic field (.deferred op predicate) =
      nestedContribution logic op (r.compileCalls scope (predicate scope)) := by
  rw [contribution, compileCalls]

theorem batchContributions_eq (r : KeyRule) (scope : Scope) (logic : Logic) :
    ∀ es : List (String × Condition Scope), r.batchContributions scope logic es =
      es.map fun e => (some e.1, r.contribution scope logic (some e.1) e.2)
  | [] => by rw [batchContributions, List.map_nil]
  | (field, c) :: es => by rw [batchContributions, List.map_cons, batchContributions_eq r scope logic es]

theorem callContributions_eq (r : KeyRule) (scope : Scope) (call : FilterCall Scope) :
    r.callContributions scope call = Keyed.mapValues (r.contribution scope call.logic) call.entries := by
  cases call with
  | name l field op operand =>
    rw [callContributions, FilterCall.entries, Keyed.mapValues, List.map_map]
    refine List.map_congr_left fun e _ => ?_
    rw [Function.comp_apply, FilterCall.logic, contribution]
  | batch l es =>
    rw [callContributions, batchContributions_eq, FilterCall.entries, Keyed.mapValues, List.map_map]
    rfl
  | deferred l op predicate =>
    rw [callContributions, FilterCall.entries, Keyed.mapValues, List.map_singleton, contribution_deferred]
    rfl

theorem callsTree_eq (r : KeyRule) (scope : Scope) : ∀ (calls : List (FilterCall Scope)) (w : Where (Condition Scope)),
    r.callsTree scope calls (w.mapEntries (r.contribution scope)) =
      (calls.foldl Where.add w).mapEntries (r.contribution scope)
  | [], w => by rw [callsTree, List.foldl_nil]
  | call :: calls, w => by
    rw [callsTree, callContributions_eq, ← Where.mapEntries_file]
    exact callsTree_eq r scope calls (w.add call)

/-- **Calls of a predicate compile to what their conditions compile to**, filed one after the other. -/
theorem compileCalls_eq (r : KeyRule) (scope : Scope) (calls : List (FilterCall Scope)) :
    r.compileCalls scope calls = r.compileFilter { toScope := scope, filter := calls.foldl Where.add [] } := by
  have htree : r.callsTree scope calls [] = (calls.foldl Where.add []).mapEntries (r.contribution scope) :=
    callsTree_eq r scope calls []
  rw [compileCalls, htree, compileFilter, contributions, Where.mapEntries, Keyed.mapValues, List.flatMap_map]
  simp only [Keyed.mapValues, List.map_map]
  rfl

end KeyRule

end DocQuery
