import DocQuery.Proofs.Bound
import DocQuery.Session.Write

/-!
# Preconditions come first

What is missing is said before an operation starts.  Compiling a request, reading its filter, finding the endpoint and
writing to a store all fail in other ways (`Session.update_started`), as long as the driver has no such faults of its
own; that in memory has none (`Memory.plain`).
-/
namespace DocQuery

/-- A result that is no missing precondition: the operation was started. -/
def Started {α : Type} (x : Except Fault α) : Prop := ∀ c, x ≠ .error (.precondition c)

namespace Started

variable {σ α β : Type}

theorem ok (a : α) : Started (.ok a) := by
  intro c h
  cases h

theorem query (cause : QueryFault) : Started (.error (.query cause) : Except Fault α) := by
  intro c h
  cases h

theorem driver (cause : DriverFault) : Started (.error (.driver cause) : Except Fault α) := by
  intro c h
  cases h

theorem of_error {e : Fault} (h : Started (.error e : Except Fault α)) : Started (.error e : Except Fault β) := by
  intro c hc
  cases hc
  exact h c rfl

theorem bind {x : Except Fault α} {k : α → Except Fault β} (hx : Started x) (hk : ∀ a, Started (k a)) :
    Started (x >>= k) := by
  cases x with
  | error e => exact hx.of_error
  | ok a => exact hk a

theorem map {x : Except Fault α} (hx : Started x) (f : α → β) : Started (x.map f) := by
  cases x with
  | error e => exact hx.of_error
  | ok a => exact ok (f a)

theorem andThen {m : Run σ α} {k : α → Run σ β} {s : σ} (hm : Started (m.on s).1)
    (hk : ∀ a t, m.on s = (.ok a, t) → Started ((k a).on t).1) : Started ((m >>= k).on s).1 := by
  rcases hon : m.on s with ⟨e | a, t⟩
  · rw [hon] at hm
    rw [Run.on_bind_error hon]
    exact hm.of_error
  · rw [Run.on_bind_ok hon]
    exact hk a t hon

end Started

/-! ## Compiling -/

namespace Compiled

theorem rangeBounds_started (op : String) (v : Value) : Started (rangeBounds op v) := by
  unfold rangeBounds
  split
  · exact .ok _
  · exact .query _

theorem ofOperator_started (r : KeyRule) (field op : String) (v : Value) : Started (ofOperator r field op v) := by
  unfold ofOperator
  simp only
  split
  -- only the lengths, the ranges and what no operator is can fail
  all_goals first
    | (split
       · exact .ok _
       · exact .query _)
    | exact (rangeBounds_started _ _).map _
    | exact .ok _

theorem ofPairs_started (r : KeyRule) (field stored : String) :
    ∀ (pairs : List (String × Value)) (acc : Fields), Started (ofPairs r field stored pairs acc)
  | [], acc => .ok acc
  | (op, v) :: rest, acc => by
    rw [ofPairs]
    refine (ofOperator_started r stored op v).bind fun compiled => ?_
    cases compiled with
    | equals v => exact ofPairs_started r field stored rest _
    | operators fs => exact ofPairs_started r field stored rest _
    | document v => exact .query _

end Compiled

namespace KeyRule

variable {r : KeyRule}

theorem item_started (r : KeyRule) (field : String) (c : Comparison) : Started (r.item field c) := by
  unfold item
  cases c with
  | single op v =>
    refine (Compiled.ofOperator_started r _ op v).bind fun compiled => ?_
    cases compiled with
    | equals v => exact .ok _
    | operators fs => exact .ok _
    | document v => exact .ok _
  | many pairs => exact (Compiled.ofPairs_started r field _ pairs []).map _

theorem items_started (r : KeyRule) (key : String) (c : Comparison) : ∀ fields, Started (r.items key c fields)
  | [] => .ok []
  | field :: fields => (item_started r field c).bind fun _ => (items_started r key c fields).bind fun _ => .ok _

theorem plainContribution_started (r : KeyRule) (logic : Logic) (field : Option String) (c : Comparison) :
    Started (r.plainContribution logic field c) := by
  cases field with
  | none =>
    unfold plainContribution
    simp only
    split
    · exact .ok _
    · exact .query _
  | some field =>
    rw [plainContribution_some]
    exact items_started r _ c _

theorem collect_started : ∀ {cs : List (Except Fault Contribution)} (fs : Fields), (∀ c ∈ cs, Started c) →
    Started (collect fs cs)
  | [], fs, _ => .ok fs
  | _ :: _, fs, h => by
    obtain ⟨hc, hcs⟩ := List.forall_mem_cons.1 h
    exact hc.bind fun items => collect_started (items.foldl push fs) hcs

theorem nestedContribution_started (logic : Logic) (op : Option String) {nested : Except Fault Fields}
    (h : Started nested) : Started (nestedContribution logic op nested) := by
  unfold nestedContribution
  refine h.bind fun fs => ?_
  split
  · exact .ok _
  · have hkey : Started (nestedKey logic op) := by
      unfold nestedKey
      split
      · exact .ok _
      · split
        · exact .ok _
        · refine Started.map ?_ _
          unfold Logic.parse
          split
          · exact .ok _
          · exact .ok _
          · exact .ok _
          · exact .query _
    exact hkey.bind fun key => .ok _

end KeyRule

theorem Group.mem_setAll {α : Type} : ∀ {es g : Group α} {e : Option String × α}, e ∈ Group.setAll g es → e ∈ g ∨ e ∈ es
  | [], _, _, h => .inl h
  | (field, c) :: es, g, e, h => by
    have hrest : e ∈ Group.setAll (Group.set g field c) es := h
    rcases mem_setAll hrest with h | h
    · cases field with
      | none =>
        rcases List.mem_append.1 h with h | h
        · exact .inl h
        · exact .inr (List.mem_singleton.1 h ▸ List.mem_cons_self)
      | some name =>
        rcases Keyed.mem_set h with rfl | h
        · exact .inr List.mem_cons_self
        · exact .inl h
    · exact .inr (List.mem_cons_of_mem _ h)

theorem Where.mem_entries_file {α : Type} {w : Where α} {l : Logic} {es : Group α} {e : Filed α}
    (h : e ∈ (w.file l es).entries) : e ∈ w.entries ∨ e.2 ∈ es := by
  unfold file at h
  split at h
  · exact .inl h
  · rcases mem_entries_set h with h | ⟨hl, h⟩
    · exact .inl h
    · rcases Group.mem_setAll h with h | h
      · cases hg : Keyed.get? w l with
        | none =>
          rw [hg] at h
          cases h
        | some g =>
          rw [hg] at h
          exact .inl (List.mem_flatMap.2 ⟨(l, g), Keyed.mem_of_get? hg, List.mem_map.2 ⟨e.2, h, Prod.ext hl.symm rfl⟩⟩)
      · exact .inr h

namespace KeyRule

theorem contributions_started {w : Where (Except Fault Contribution)} (h : ∀ e ∈ w.entries, Started e.2.2) :
    ∀ c ∈ contributions w, Started c := by
  intro c hc
  obtain ⟨g, hg, hc⟩ := List.mem_flatMap.1 hc
  obtain ⟨e, he, rfl⟩ := List.mem_map.1 hc
  exact h (g.1, e) (List.mem_flatMap.2 ⟨g, hg, List.mem_map.2 ⟨e, he, rfl⟩⟩)

mutual

theorem callContributions_started (r : KeyRule) (scope : Scope) :
    ∀ c : FilterCall Scope, ∀ e ∈ r.callContributions scope c, Started e.2
  | .name logic field op operand, e, he => by
    rw [callContributions] at he
    obtain ⟨entry, -, rfl⟩ := List.mem_map.1 he
    exact plainContribution_started r logic _ _
  | .batch logic entries, e, he => by
    rw [callContributions] at he
    exact batchContributions_started r scope logic entries e he
  | .deferred logic op predicate, e, he => by
    rw [callContributions] at he
    rw [List.mem_singleton.1 he]
    have htree := callsTree_started r scope (predicate scope) [] fun e he => by cases he
    exact nestedContribution_started _ _ (collect_started _ (contributions_started htree))

theorem batchContributions_started (r : KeyRule) (scope : Scope) (logic : Logic) :
    ∀ es : List (String × Condition Scope), ∀ e ∈ r.batchContributions scope logic es, Started e.2
  | [], e, he => by
    rw [batchContributions] at he
    cases he
  | (field, c) :: es, e, he => by
    rw [batchContributions] at he
    rcases List.mem_cons.1 he with rfl | he
    · exact contribution_started r scope logic (some field) c
    · exact batchContributions_started r scope logic es e he

theorem contribution_started (r : KeyRule) (scope : Scope) (logic : Logic) (field : Option String) :
    ∀ c : Condition Scope, Started (r.contribution scope logic field c)
  | .plain c => by
    rw [contribution]
    exact plainContribution_started r logic field c
  | .deferred op predicate => by
    rw [contribution]
    have htree := callsTree_started r scope (predicate scope) [] fun e he => by cases he
    exact nestedContribution_started _ _ (collect_started _ (contributions_started htree))

theorem callsTree_started (r : KeyRule) (scope : Scope) :
    ∀ (cs : List (FilterCall Scope)) (w : Where (Except Fault Contribution)), (∀ e ∈ w.entries, Started e.2.2) →
      ∀ e ∈ (r.callsTree scope cs w).entries, Started e.2.2
  | [], _, hw => hw
  | c :: cs, w, hw => callsTree_started r scope cs (w.file c.logic (r.callContributions scope c)) fun e he =>
    (Where.mem_entries_file he).elim (hw e) fun he => callContributions_started r scope c e.2 he

end

theorem contributes_started (r : KeyRule) (scope : Scope) (e : Filed (Condition Scope)) :
    Started (r.contributes scope e) := contribution_started r scope e.1 e.2.1 e.2.2

theorem compileFilter_started (r : KeyRule) (q : Request) : Started (r.compileFilter q) := by
  rw [compileFilter_eq]
  refine collect_started _ fun c hc => ?_
  obtain ⟨e, -, rfl⟩ := List.mem_map.1 hc
  exact contributes_started r q.toScope e

theorem assignAll_started (r : KeyRule) : ∀ (data : List (String × Assignment)) (change : Fields),
    Started (r.assignAll data change)
  | [], change => .ok change
  | (field, a) :: rest, change => by
    refine Started.bind ?_ fun change => assignAll_started r rest change
    cases a with
    | plain v =>
      rw [assign]
      split
      · exact .ok _
      · exact .ok _
    | operator op v =>
      rw [assign]
      split
      · exact .ok _
      · split
        · exact .ok _
        · exact .query _

/-- **Compiling an update misses no precondition.** -/
theorem update_started (r : KeyRule) (q : Request) : Started (r.update q) :=
  (compileFilter_started r q).bind fun _ => (assignAll_started r q.data []).bind fun _ => .ok _

end KeyRule

/-! ## Reading filters -/

namespace Test

theorem ofOperator_started (operators : Fields) (op : String) (v : Value) : Started (ofOperator operators op v) := by
  have harray : Started (arrayOperand op v) := by
    unfold arrayOperand
    split
    · exact .ok _
    · exact .query _
  have hflag : Started (flagOperand v) := by
    unfold flagOperand
    split
    · exact .ok _
    · exact .ok _
    · exact .ok _
    · exact .query _
  have hpattern : Started (patternOperand operators v) := by
    unfold patternOperand
    split
    · simp only
      split
      · exact .ok _
      · exact .query _
    · exact .query _
  have hmod : Started (modOperand v) := by
    unfold modOperand
    split
    · split
      · split
        · exact .ok _
        · exact .query _
      · exact .query _
    · exact .query _
  unfold ofOperator
  split
  case h_14 =>
    split
    · exact .ok _
    · exact .query _
  all_goals first
    | exact .ok _
    | exact .query _
    | exact harray.map _
    | exact hflag.map _
    | exact hpattern.map _
    | exact hmod.map _

mutual

theorem ofValue_started : ∀ v : Value, Started (Test.ofValue v)
  | .obj fs => by
    rw [Test.ofValue]
    split
    · exact ofOperators_started fs fs
    · exact .ok _
  | .null | .bool _ | .int _ | .float _ | .str _ | .arr _ => by
    rw [Test.ofValue]
    · exact .ok _
    · simp

theorem ofOperators_started (all : Fields) : ∀ fs : List (String × Value), Started (Test.ofOperators all fs)
  | [] => by
    rw [Test.ofOperators]
    exact .ok _
  | (op, v) :: fs => by
    rw [Test.ofOperators]
    have hrest : ∀ first : List Test, Started (do return first ++ (← Test.ofOperators all fs)) := fun _ =>
      (ofOperators_started all fs).bind fun _ => .ok _
    split
    · exact ((ofValue_started v).map _).bind hrest
    · exact (ofOperator_started all op v).bind hrest

end

end Test

namespace Filter

mutual

/-- **Reading a filter document misses no precondition.** -/
theorem ofValue_started : ∀ v : Value, Started (Filter.ofValue v)
  | .obj fs => by
    rw [Filter.ofValue]
    exact ofFields_started fs
  | .null => by
    rw [Filter.ofValue]
    exact .ok _
  | .bool _ | .int _ | .float _ | .str _ | .arr _ => by
    rw [Filter.ofValue]
    · exact .query _
    all_goals simp

theorem ofFields_started : ∀ fs : List (String × Value), Started (Filter.ofFields fs)
  | [] => by
    rw [Filter.ofFields]
    exact .ok _
  | (key, v) :: fs => by
    rw [ofFields_cons]
    refine Started.bind ?_ fun _ => (ofFields_started fs).map _
    unfold readField
    cases Junction.ofKey? key with
    | none =>
      simp only
      split
      · exact .query _
      · split
        · exact .query _
        · exact (Test.ofValue_started v).map _
    | some j =>
      cases v with
      | arr branches => exact (ofBranches_started branches).map _
      | _ => exact .query _

theorem ofBranches_started : ∀ vs : List Value, Started (Filter.ofBranches vs)
  | [] => by
    rw [Filter.ofBranches]
    exact .ok _
  | v :: vs => by
    rw [ofBranches_cons]
    exact (ofValue_started v).bind fun _ => (ofBranches_started vs).map _

end

end Filter

/-! ## Writing -/

namespace Write

theorem upsert_started (filter change : Value) (st : WriteState) (c : Precondition) :
    (upsert filter change st).2 ≠ some (.precondition c) := by
  unfold upsert
  split
  · simp [ChangeFault.fault]
  · simp

theorem one_started (ns : Namespace) (st : WriteState) (w : WriteModel) (c : Precondition) :
    (one ns st w).2 ≠ some (.precondition c) := by
  cases w with
  | insert document =>
    rw [one, insert]
    simp only
    split
    · simp [notADocument]
    · split
      · simp [duplicateKey]
      · simp
  | update filter change multi wantsUpsert =>
    rw [one, update]
    cases hf : Filter.ofValue filter with
    | error e =>
      simp only
      rintro ⟨rfl⟩
      exact Filter.ofValue_started filter c hf
    | ok f =>
      simp only
      split
      · simp [ChangeFault.fault]
      · split
        · exact upsert_started filter change _ c
        · simp
  | delete filter limit =>
    rw [one, delete]
    cases hf : Filter.ofValue filter with
    | error e =>
      simp only
      rintro ⟨rfl⟩
      exact Filter.ofValue_started filter c hf
    | ok f => simp

theorem all_started (ns : Namespace) (c : Precondition) : ∀ (b : BulkWrite) (st : WriteState),
    (all ns b st).2 ≠ some (.precondition c)
  | [], st => by simp [all]
  | w :: ws, st => by
    have hw := one_started ns st w c
    rw [all]
    rcases hone : one ns st w with ⟨st', _ | f⟩
    · exact all_started ns c ws st'
    · rw [hone] at hw
      exact hw

end Write

/-- A driver whose faults are its own: none of them is a missing precondition. -/
structure Driver.Plain {σ : Type} (d : Driver σ) : Prop where
  connect : ∀ address params m, Started ((d.connect address params).on m).1
  write : ∀ link ns b concern m, Started ((d.write link ns b concern).on m).1

/-- **The driver in memory has no faults but its own.** -/
theorem Memory.plain : Memory.driver.Plain where
  connect address params m := by
    simp only [driver, Run.on_of]
    unfold Memory.connect
    split
    · exact .driver _
    · split
      · exact .ok _
      · exact .driver _
  write link ns b concern m := by
    have hall := Write.all_started ns
    simp only [driver, Run.on_of, Memory.write, Store.write]
    cases hfault : (Write.all ns b { docs := m.store.documents ns, supply := m.supply }).2 with
    | none => exact .ok _
    | some f =>
      intro c h
      cases h
      exact hall c b _ hfault

theorem Pool.link_started {σ : Type} {p : Pool σ} (hp : p.driver.Plain) (slot : Slot) :
    Started ((link slot).on p).1 ∧ ((link slot).on p).2.driver = p.driver := by
  unfold link
  rw [Run.on_bind_ok (Run.on_get p)]
  cases Keyed.get? p.links slot with
  | some l => exact ⟨.ok l, rfl⟩
  | none =>
    have hconnect := hp.connect (p.settings.target slot).1 (p.settings.target slot).2 p.state
    have hdrive : (drive (p.driver.connect (p.settings.target slot).1 (p.settings.target slot).2)).on p =
        (((p.driver.connect (p.settings.target slot).1 (p.settings.target slot).2).on p.state).1,
          { p with state :=
            ((p.driver.connect (p.settings.target slot).1 (p.settings.target slot).2).on p.state).2 }) := rfl
    simp only
    cases hon : ((p.driver.connect (p.settings.target slot).1 (p.settings.target slot).2).on p.state).1 with
    | error e =>
      rw [hon] at hdrive hconnect
      rw [Run.on_bind_error hdrive]
      exact ⟨hconnect.of_error, rfl⟩
    | ok l =>
      rw [hon] at hdrive
      rw [Run.on_bind_ok hdrive, Run.on_bind_ok (Run.on_modify _ _)]
      exact ⟨.ok l, rfl⟩

namespace Session

variable {σ : Type} {s : Session σ}

theorem endpoint_started (hd : s.pool.driver.Plain) (role : Role) : Started ((endpoint role).on s).1 ∧
    ((endpoint role).on s).2.pool.driver = s.pool.driver := by
  obtain ⟨hstarted, hdriver⟩ := Pool.link_started hd (s.settings.select role (s.draws.draw s.draws.next))
  rw [endpoint_eq s role rfl]
  exact ⟨hstarted.map _, hdriver⟩

theorem submit_started (hd : s.pool.driver.Plain) (q : Request) (b : BulkWrite) :
    Started ((submit q b).on s).1 := by
  obtain ⟨hstarted, hdriver⟩ := endpoint_started hd .write
  unfold submit
  refine hstarted.andThen fun e t hon => ?_
  rw [hon] at hdriver
  rw [Run.on_bind_ok (Run.on_get t)]
  refine Started.andThen ?_ fun ns u hns => ?_
  · rw [Run.on_lift]
    unfold collection
    split
    · exact .query _
    · exact .ok _
  · rw [Run.on_lift] at hns
    cases (Prod.mk.inj hns).2
    have hwrite : Started ((drive (t.pool.driver.write e.2 ns b q.writeConcern)).on t).1 := by
      rw [hdriver]
      exact hd.write e.2 ns b q.writeConcern t.pool.state
    refine hwrite.andThen fun r v _ => ?_
    exact .ok r

/-- **An update of something was started.** -/
theorem update_started (hd : s.pool.driver.Plain) {q : Request} (hq : q.data.isEmpty = false) :
    Started ((update q).on s).1 := by
  unfold update
  rw [hq]
  simp only [Bool.false_eq_true, if_false]
  rw [Run.on_bind_ok (Run.on_get s)]
  refine Started.andThen ?_ fun b t hb => ?_
  · rw [Run.on_lift]
    exact KeyRule.update_started s.keyRule q
  · rw [Run.on_lift] at hb
    cases (Prod.mk.inj hb).2
    refine (submit_started hd q b).andThen fun r u _ => ?_
    split
    · exact .ok _
    · exact .ok _

end Session

end DocQuery
