import DocQuery.Proofs.CounterFlush
import DocQuery.Proofs.Faults

/-!
# Mutations without a condition

A request may have conditions and still compile to no condition at all: deferred predicates may have nothing to say
(`KeyRule.compileFilter_eq_nil`).  A deletion looks at the compiled filter and is refused; a step on a field looks at
the conditions of the request only, and goes through (`Query.unconditioned_refused`,
`Query.vacuous_step_changes_document`).
-/
namespace DocQuery

theorem Where.isEmpty_iff {α : Type} {w : Where α} : w.isEmpty = true ↔ w.entries = [] := by
  simp [isEmpty, entries, List.flatMap_eq_nil_iff]

namespace KeyRule

variable {r : KeyRule} {q : Request}

theorem push_ne_nil (fs : Fields) (item : String × Value) : push fs item ≠ [] := by
  have hset : ∀ (m : Fields) v, Keyed.set m item.1 v ≠ [] := by
    intro m v
    cases m with
    | nil => simp [Keyed.set]
    | cons e m =>
      rw [Keyed.set]
      split
      · simp
      · simp
  unfold push
  split
  · exact hset _ _
  · exact hset _ _
  · rename_i hget
    rintro rfl
    cases hget

theorem foldl_push_eq_nil {items : Contribution} : items.foldl push [] = [] ↔ items = [] := by
  have hgrows : ∀ (items : Contribution) (fs : Fields), fs ≠ [] → items.foldl push fs ≠ [] := by
    intro items
    induction items with
    | nil => exact fun _ h => h
    | cons item items ih => exact fun fs _ => ih _ (push_ne_nil fs item)
  constructor
  · intro h
    cases items with
    | nil => rfl
    | cons item items => exact absurd h (hgrows items _ (push_ne_nil [] item))
  · rintro rfl
    rfl

/-- **A request has no condition just if none of its conditions contributes one.** -/
theorem compileFilter_eq_nil : r.compileFilter q = .ok [] ↔
    ∀ e ∈ q.filter.entries, r.contributes q.toScope e = .ok [] := by
  rw [compileFilter_eq_ok, eq_comm (a := ([] : Fields)), foldl_push_eq_nil]
  constructor
  · rintro ⟨hall, hnone⟩ e he
    obtain ⟨items, hitems⟩ := hall e he
    have hempty := List.flatMap_eq_nil_iff.1 hnone e he
    rw [hitems] at hempty
    rw [hitems, show items = [] from hempty]
  · intro h
    refine ⟨fun e he => ⟨[], h e he⟩, List.flatMap_eq_nil_iff.2 fun e he => ?_⟩
    rw [h e he]

theorem contributes_plain_ne_nil (r : KeyRule) (scope : Scope) (l : Logic) (field : Option String) (c : Comparison) :
    r.contributes scope (l, field, .plain c) ≠ .ok [] := by
  intro h
  rw [contributes, contribution] at h
  cases field with
  | none =>
    simp only [plainContribution] at h
    split at h
    · cases h
    · cases h
  | some field =>
    rw [plainContribution_some] at h
    obtain ⟨name, names, hfields⟩ := List.exists_cons_of_ne_nil (fieldsOf_ne_nil field)
    rw [hfields, items, bind_eq_ok] at h
    obtain ⟨first, -, h⟩ := h
    obtain ⟨rest, -, h⟩ := bind_eq_ok.1 h
    cases h

end KeyRule

namespace Session

variable {σ : Type}

/-- A request whose conditions compile to none. -/
def Unconditioned (s : Session σ) (q : Request) : Prop := s.keyRule.compileFilter (s.finalize q) = .ok []

theorem Unconditioned.isEmpty {s : Session σ} {q : Request} (h : s.Unconditioned q)
    (hq : ∀ e ∈ q.filter.entries, ∃ c, e.2.2 = .plain c) : q.filter.isEmpty = true := by
  rw [Where.isEmpty_iff, List.eq_nil_iff_forall_not_mem]
  rintro ⟨l, field, c⟩ he
  obtain ⟨c, rfl⟩ := hq _ he
  exact KeyRule.contributes_plain_ne_nil _ _ _ _ _ (KeyRule.compileFilter_eq_nil.1 h _ he)

/-- **A deletion without a condition is refused.** -/
theorem Unconditioned.delete_on {s : Session σ} {q : Request} (h : s.Unconditioned q)
    (hforce : q.force.getD false = false) :
    (delete (s.finalize q)).on s = (.error (.precondition .deleteCondition), s) := by
  have hkept : (s.finalize q).force.getD false = false := hforce
  unfold delete
  rw [Run.on_bind_ok (Run.on_get s), h, Run.on_bind_ok (Run.on_lift _ _), hkept]
  rfl

end Session

namespace Query

section

variable {σ α : Type} {w : Query σ}

/-- A call misses a precondition and leaves the session as it was, but for the cache. -/
def Refused (m : Run (Query σ) α) (w : Query σ) : Prop :=
  ∃ c cache, (m.on w).1 = .error (.precondition c) ∧ (m.on w).2.session = w.session.withCache cache

/-- What a step without a condition comes to: it is kept, or a sum is to be written now; and the cache that is left. -/
def due (w : Query σ) (field : String) (step : Int) (window : Option Nat) : CounterOutcome × Cache :=
  match window.filter (0 < ·) with
  | none => (.flush step, w.session.cache)
  | some window => Counter.accumulate w.session.cache w.session.now w.session.clock
      (Counter.key (w.session.finalize w.request).tableName field (.obj [])) step window

theorem increment_of_isEmpty (hw : w.request.filter.isEmpty = true) (field : String) (step : Int)
    (window : Option Nat) : (increment field step window).on w = (.error (.precondition .counterCondition), w) := by
  unfold increment
  rw [Run.on_bind_ok (Run.on_get w), hw]
  rfl

/-- **A step is kept or written if the request has conditions**, be there something in them or not. -/
theorem increment_unconditioned (h : w.session.Unconditioned w.request) (hw : w.request.filter.isEmpty = false)
    (field : String) (step : Int) (window : Option Nat) : (increment field step window).on w =
      match w.due field step window with
      | (.buffered, c) => (.ok none, ⟨w.session.withCache c, w.session.finalize w.request⟩)
      | (.flush total, c) =>
        let r := w.session.finalize ((w.session.finalize w.request).increment field total)
        let out := (Session.update r).on (w.session.withCache c)
        (out.1.map some, ⟨out.2, r⟩) := by
  cases hwindow : window.filter (0 < ·) with
  | some n =>
    obtain ⟨rfl, hpos⟩ := Option.filter_eq_some_iff.1 hwindow
    have hkey : w.session.counterKey (w.session.finalize w.request) field =
        .ok (Counter.key (w.session.finalize w.request).tableName field (.obj [])) := by
      unfold Session.counterKey
      rw [h]
      rfl
    have hdue : w.due field step (some n) = Counter.accumulate w.session.cache w.session.now w.session.clock
        (Counter.key (w.session.finalize w.request).tableName field (.obj [])) step n := by
      unfold due
      rw [hwindow]
    rw [hdue]
    exact Counter.increment_on hw (of_decide_eq_true hpos) hkey
  | none =>
    have hfinal : finalize.on w = (.ok (w.session.finalize w.request), ⟨w.session, w.session.finalize w.request⟩) := rfl
    have hset : (setRequest ((w.session.finalize w.request).increment field step)).on
        ⟨w.session, w.session.finalize w.request⟩ =
          (.ok ⟨⟩, ⟨w.session, (w.session.finalize w.request).increment field step⟩) := rfl
    unfold increment due
    rw [Run.on_bind_ok (Run.on_get w), hw, hwindow]
    simp only [Bool.false_eq_true, if_false]
    rw [Run.on_bind_ok hfinal, Run.on_bind_ok hset, Run.on_bind, finalized_on]
    simp only
    rw [show w.session.withCache w.session.cache = w.session from rfl]
    rcases (Session.update _).on w.session with ⟨e | n, t⟩
    · rfl
    · rfl

theorem update_of_isEmpty {q : Request} (hq : q.data.isEmpty = true) (s : Session σ) :
    (Session.update q).on s = (.error (.precondition .updateData), s) := by
  unfold Session.update
  rw [hq]
  rfl

theorem isEmpty_data_increment (s : Session σ) (q : Request) (field : String) (step total : Int) :
    (s.finalize ((s.finalize q).increment field total)).data.isEmpty = (q.increment field step).data.isEmpty := by
  have hkeys : ∀ (fields : List String) (m m' : Keyed String Assignment), m.isEmpty = m'.isEmpty →
      (Keyed.setAll m (fields.map fun f => (f, .increment total))).isEmpty =
        (Keyed.setAll m' (fields.map fun f => (f, .increment step))).isEmpty := by
    intro fields
    induction fields with
    | nil => exact fun _ _ h => h
    | cons f fields ih =>
      intro m m' _
      refine ih _ _ ?_
      have hset : ∀ (m : Keyed String Assignment) a, (Keyed.set m f a).isEmpty = false := by
        intro m a
        cases m with
        | nil => rfl
        | cons e m =>
          rw [Keyed.set]
          split
          · rfl
          · rfl
      rw [hset, hset]
  exact hkeys (Text.splitList field) q.data q.data rfl

/-- **Without a condition, deletions are refused; a step on a field is refused if there are no conditions at all, and
otherwise just if there is no field to add it to and it is not kept.**  The session stays as it was, but for the cache
in the last case.  Without deferred predicates there are no conditions at all. -/
theorem unconditioned_refused (hd : w.session.pool.driver.Plain) (h : w.session.Unconditioned w.request) :
    (w.request.force.getD false = false → (delete none).on w =
      (.error (.precondition .deleteCondition), ⟨w.session, w.session.finalize w.request⟩)) ∧
    (∀ field step window, w.request.filter.isEmpty = true →
      (increment field step window).on w = (.error (.precondition .counterCondition), w)) ∧
    (∀ field step window, Refused (increment field step window) w ↔ w.request.filter.isEmpty = true ∨
      ((w.request.increment field step).data.isEmpty = true ∧ (w.due field step window).1 ≠ .buffered)) ∧
    ((∀ e ∈ w.request.filter.entries, ∃ c, e.2.2 = .plain c) → w.request.filter.isEmpty = true) := by
  refine ⟨fun hforce => ?_, fun field step window hw => increment_of_isEmpty hw field step window,
    fun field step window => ?_, h.isEmpty⟩
  · have hdelete : (delete none).on w = (finalized Session.delete).on w := by
      unfold delete
      rw [Run.on_bind_ok (Run.on_get w)]
    rw [hdelete, finalized_on, h.delete_on hforce]
  · cases hw : w.request.filter.isEmpty with
    | true =>
      refine iff_of_true ⟨.counterCondition, w.session.cache, ?_, ?_⟩ (.inl rfl)
      · rw [increment_of_isEmpty hw]
      · rw [increment_of_isEmpty hw]
        rfl
    | false =>
      unfold Refused
      rw [increment_unconditioned h hw]
      rcases w.due field step window with ⟨_ | total, cache⟩
      · refine iff_of_false ?_ (by simp)
        rintro ⟨c, -, hc, -⟩
        cases hc
      · have hdata := isEmpty_data_increment w.session w.request field step total
        cases hq : (w.request.increment field step).data.isEmpty with
        | true =>
          rw [hq] at hdata
          refine iff_of_true ⟨.updateData, cache, ?_, ?_⟩ (.inr ⟨rfl, by simp⟩)
          · simp only [update_of_isEmpty hdata]
            rfl
          · simp only [update_of_isEmpty hdata]
        | false =>
          -- the update was started, so whatever it fails with is no missing precondition
          rw [hq] at hdata
          refine iff_of_false ?_ (by simp)
          rintro ⟨c, -, hc, -⟩
          exact ((Session.update_started (s := w.session.withCache cache) hd hdata).map some) c hc

end

def vacuous : Request := { table := some "t", filter := [(.and, [(none, .deferred none fun _ => [])])] }

def numbered : Session Memory := Walk.stored Walk.freshSession ⟨"app", "t"⟩ [.obj [("_id", .int 1), ("n", .int 0)]]

theorem unconditioned_refused_vacuous : numbered.pool.driver.Plain ∧ numbered.Unconditioned vacuous ∧
    (delete none).on ⟨numbered, vacuous⟩ =
      (.error (.precondition .deleteCondition), ⟨numbered, numbered.finalize vacuous⟩) ∧
    (∀ field step window, Refused (increment field step window) ⟨numbered, vacuous⟩ ↔
      vacuous.filter.isEmpty = true ∨ ((vacuous.increment field step).data.isEmpty = true ∧
        (due ⟨numbered, vacuous⟩ field step window).1 ≠ .buffered)) := by
  obtain ⟨hdelete, -, hstep, -⟩ := unconditioned_refused (w := ⟨numbered, vacuous⟩) Memory.plain rfl
  exact ⟨Memory.plain, rfl, hdelete rfl, hstep⟩

/-- **A step goes through without a condition**, and changes the document. -/
theorem vacuous_step_changes_document : numbered.Unconditioned vacuous ∧
    ((increment "n" 1 none).on ⟨numbered, vacuous⟩).1 = .ok (some 1) ∧
    ((increment "n" 1 none).on ⟨numbered, vacuous⟩).2.session.pool.state.store.documents ⟨"app", "t"⟩ =
      [.obj [("_id", .int 1), ("n", .int 1)]] ∧
    ¬ Refused (increment "n" 1 none) ⟨numbered, vacuous⟩ := by
  have hdone : ((increment "n" 1 none).on ⟨numbered, vacuous⟩).1 = .ok (some 1) := rfl
  refine ⟨rfl, hdone, rfl, ?_⟩
  rintro ⟨c, -, hc, -⟩
  rw [hdone] at hc
  cases hc

end Query

end DocQuery
