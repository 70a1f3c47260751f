import DocQuery.Driver.Memory
import DocQuery.Proofs.CacheFrame
import DocQuery.Proofs.Counter
import DocQuery.Proofs.WalkFilter
import DocQuery.Query

/-!
# Writing what was buffered

A counter is taken out of the cache before it is written, so a write that fails leaves nothing behind
(`Attempt.leaves_of_flush`).  What callers were promised is then no longer there, unless nothing waited
(`promises_kept_iff`).
-/
namespace DocQuery

namespace Counter

variable {σ : Type}

/-! ## One attempt -/

theorem increment_on {q : Query σ} {field key : String} {step : Int} {window : Nat}
    (hfilter : q.request.filter.isEmpty = false) (hwindow : 0 < window)
    (hkey : q.session.counterKey (q.session.finalize q.request) field = .ok key) :
    (Query.increment field step (some window)).on q =
      match accumulate q.session.cache q.session.now q.session.clock key step window with
      | (.buffered, c) => (.ok none, ⟨q.session.withCache c, q.session.finalize q.request⟩)
      | (.flush total, c) =>
        let r := q.session.finalize ((q.session.finalize q.request).increment field total)
        let out := (Session.update r).on (q.session.withCache c)
        (out.1.map some, ⟨out.2, r⟩) := by
  have hfinal : Query.finalize.on q = (.ok (q.session.finalize q.request), ⟨q.session, q.session.finalize q.request⟩) :=
    rfl
  have haccumulate : (Query.sessioned (Session.accumulate (q.session.finalize q.request) field step window)).on
      ⟨q.session, q.session.finalize q.request⟩ =
        (.ok (accumulate q.session.cache q.session.now q.session.clock key step window).1,
          ⟨q.session.withCache (accumulate q.session.cache q.session.now q.session.clock key step window).2,
            q.session.finalize q.request⟩) := by
    rw [Query.sessioned, Run.on_within]
    unfold Session.accumulate
    rw [Run.on_bind_ok (Run.on_get _), hkey]
    rfl
  have hsome : (some window).filter (0 < ·) = some window := by simp [hwindow]
  unfold Query.increment
  rw [Run.on_bind_ok (Run.on_get _), hfilter]
  simp only [Bool.false_eq_true, if_false, hsome]
  rw [Run.on_bind_ok hfinal, Run.on_bind_ok haccumulate]
  rcases accumulate q.session.cache q.session.now q.session.clock key step window with ⟨_ | total, c⟩
  · rfl
  · simp only
    rw [Run.on_bind_ok (show (Query.setRequest _).on _ = (.ok ⟨⟩, _) from rfl), Run.on_bind, Query.finalized_on]
    simp only
    rw [show (q.session.withCache c).finalize = q.session.finalize from rfl]
    rcases (Session.update _).on (q.session.withCache c) with ⟨e | n, t⟩
    · rfl
    · rfl

/-- A buffered step on a counter, and what happens to the session before it: clocks go on, links are lost or refused,
other requests are made. -/
structure Attempt (σ : Type) where
  before : Session σ → Session σ
  request : Request
  field : String
  step : Int
  window : Nat

namespace Attempt

def on (a : Attempt σ) (s : Session σ) : Except Fault (Option Nat) × Session σ :=
  let out := (Query.increment a.field a.step (some a.window)).on ⟨a.before s, a.request⟩
  (out.1, out.2.session)

def counted (key : String) (a : Attempt σ) (s : Session σ) : CounterOutcome × Cache :=
  accumulate (a.before s).cache (a.before s).now (a.before s).clock key a.step a.window

def taken (key : String) (a : Attempt σ) (s : Session σ) : Int := written (a.counted key s).1

/-- A step is one on a counter: nothing else writes under its keys, and its sum does not leave signed words of 64
bits. -/
structure Fair (key : String) (a : Attempt σ) (s : Session σ) : Prop where
  wellFormed : (a.before s).cache.WellFormed
  alone : (a.before s).cache.held? key = s.cache.held? key ∧
    (a.before s).cache.held? (openedKey key) = s.cache.held? (openedKey key)
  clock : IsReading (a.before s).clock
  fits : Fits ((a.before s).cache.number (a.before s).now key + a.step)
  filter : a.request.filter.isEmpty = false
  window : 0 < a.window
  target : (a.before s).counterKey ((a.before s).finalize a.request) a.field = .ok key

/-- By how much a step changes what callers were promised: a step that is kept is promised to be written, and a write
that is carried out has written what it took. -/
def promised (key : String) (a : Attempt σ) (s : Session σ) : Int :=
  match (a.on s).1 with
  | .ok none => a.step
  | .ok (some _) => a.step - a.taken key s
  | .error _ => 0

def Fails (a : Attempt σ) (s : Session σ) : Prop := ∃ e, (a.on s).1 = .error e

/-- The sum that goes with a step: all that waited if the step fails. -/
def dropped (key : String) (a : Attempt σ) (s : Session σ) : Int :=
  match (a.on s).1 with
  | .error _ => s.cache.number s.now key
  | .ok _ => 0

section

variable {key : String} {a : Attempt σ} {s : Session σ} {w : Option Window}

theorem fails_of_isOk (h : (a.on s).1.isOk = false) : a.Fails s := by
  cases hon : (a.on s).1 with
  | error e => exact ⟨e, hon⟩
  | ok n =>
    rw [hon] at h
    cases h

theorem dropped_of_fails (h : a.Fails s) : a.dropped key s = s.cache.number s.now key := by
  obtain ⟨e, he⟩ := h
  rw [dropped, he]

theorem dropped_of_ok (h : ¬ a.Fails s) : a.dropped key s = 0 := by
  unfold dropped
  cases hon : (a.on s).1 with
  | error e => exact absurd ⟨e, hon⟩ h
  | ok n => rfl

theorem dropped_eq_zero (h : a.Fails s → s.cache.number s.now key = 0) : a.dropped key s = 0 :=
  Classical.byCases (fun hfails => (dropped_of_fails hfails).trans (h hfails)) dropped_of_ok

theorem on_buffered (h : a.Fair key s) {c : Cache} (hout : a.counted key s = (.buffered, c)) :
    a.on s = (.ok none, (a.before s).withCache c) := by
  have hon := @increment_on σ ⟨a.before s, a.request⟩ a.field key a.step a.window h.filter h.window h.target
  rw [counted] at hout
  simp only [hout] at hon
  rw [on, hon]

theorem on_flush (h : a.Fair key s) {c : Cache} {total : Int} (hout : a.counted key s = (.flush total, c)) :
    ∃ r, a.on s = (((Session.update r).on ((a.before s).withCache c)).1.map some,
      ((Session.update r).on ((a.before s).withCache c)).2) := by
  have hon := @increment_on σ ⟨a.before s, a.request⟩ a.field key a.step a.window h.filter h.window h.target
  rw [counted] at hout
  simp only [hout] at hon
  exact ⟨_, by rw [on, hon]⟩

/-- What a step leaves of the window of its counter: window and promise change alike, unless the step fails; then the
window had passed, and nothing is left of it. -/
def Leaves (a : Attempt σ) (key : String) (s : Session σ) (w : Option Window) : Prop :=
  (a.on s).2.cache.WellFormed ∧ ∃ w', Shows (a.on s).2.cache key w' ∧
    ((¬ a.Fails s ∧ waiting w' = waiting w + a.promised key s) ∨
      (a.Fails s ∧ a.promised key s = 0 ∧ w' = none ∧ ∃ o, w = some o ∧ o.opened + a.window < (a.before s).clock))

theorem leaves_of_buffered (h : a.Fair key s) {c : Cache} (hout : a.counted key s = (.buffered, c))
    (hwf : c.WellFormed) (hnext : .buffered = (next (a.before s).clock a.step a.window w).1)
    (hshows : Shows c key (next (a.before s).clock a.step a.window w).2) : a.Leaves key s w := by
  have hon := on_buffered h hout
  have hbalance := next_balance (a.before s).clock a.step a.window w
  rw [← hnext] at hbalance
  refine ⟨by rw [hon]; exact hwf, _, by rw [hon]; exact hshows, .inl ⟨?_, ?_⟩⟩
  · rintro ⟨e, he⟩
    rw [hon] at he
    cases he
  · rw [promised, hon]
    simpa [written] using hbalance

theorem leaves_of_flush (h : a.Fair key s) (hw : Shows (a.before s).cache key w) {c : Cache} {total : Int}
    (hout : a.counted key s = (.flush total, c)) (hwf : c.WellFormed)
    (hnext : .flush total = (next (a.before s).clock a.step a.window w).1)
    (hshows : Shows c key (next (a.before s).clock a.step a.window w).2) : a.Leaves key s w := by
  obtain ⟨r, hon⟩ := on_flush h hout
  obtain ⟨hclosed, o, rfl⟩ := next_flush hnext.symm
  have hgone : Shows c key none := hclosed ▸ hshows
  have hbalance := next_balance (a.before s).clock a.step a.window (some o)
  rw [← hnext, hclosed] at hbalance
  have hremoves := Session.removes_update r ((a.before s).withCache c) hwf
  rcases hupdate : (Session.update r).on ((a.before s).withCache c) with ⟨e | n, t⟩
  · rw [hupdate] at hremoves hon
    have hcache : t.cache = c := hremoves.2 e rfl
    refine ⟨by rw [hon]; exact hcache ▸ hwf, none, by rw [hon]; exact hcache ▸ hgone, .inr ⟨⟨e, by rw [hon]; rfl⟩, ?_⟩⟩
    exact ⟨by rw [promised, hon]; rfl, rfl, o, rfl, next_eq_none hw.2.2.2 h.clock hclosed⟩
  · rw [hupdate] at hremoves hon
    -- a write that is carried out may remove entries, but those of the counter are gone already
    have hstill : ∀ k, c.held? k = none → t.cache.held? k = none := fun k hnone => by
      rcases hremoves.1.held k with hsame | hnone'
      · exact hsame.trans hnone
      · exact hnone'
    have hshown : Shows t.cache key none := ⟨hstill _ hgone.1, hstill _ hgone.2⟩
    refine ⟨by rw [hon]; exact hremoves.1.wellFormed, none, by rw [hon]; exact hshown, .inl ⟨?_, ?_⟩⟩
    · rintro ⟨e, he⟩
      rw [hon] at he
      cases he
    · have htaken : a.taken key s = total := by rw [taken, hout]; rfl
      rw [promised, hon]
      simp only [written, waiting, Except.map, htaken] at hbalance ⊢
      omega

/-- **A step that fails has taken what waited, and no other step takes anything it does not write.** -/
theorem on_shows (hk : IsKey key) (h : a.Fair key s) (hw : Shows s.cache key w) : a.Leaves key s w := by
  have hwb : Shows (a.before s).cache key w := hw.congr h.alone.1 h.alone.2
  have hfits := h.fits
  rw [hwb.number] at hfits
  have hshows : (a.counted key s).1 = (next (a.before s).clock a.step a.window w).1 ∧
      Shows (a.counted key s).2 key (next (a.before s).clock a.step a.window w).2 :=
    accumulate_shows h.wellFormed hk hwb h.clock hfits
  have hwf : (a.counted key s).2.WellFormed := wellFormed_accumulate h.wellFormed hwb
  rcases hout : a.counted key s with ⟨_ | total, c⟩
  · rw [hout] at hshows hwf
    exact leaves_of_buffered h hout hwf hshows.1 hshows.2
  · rw [hout] at hshows hwf
    exact leaves_of_flush h hwb hout hwf hshows.1 hshows.2

end

end Attempt

/-! ## Runs -/

def ends : List (Attempt σ) → Session σ → Session σ
  | [], s => s
  | a :: as, s => ends as (a.on s).2

def AllFair (key : String) : List (Attempt σ) → Session σ → Prop
  | [], _ => True
  | a :: as, s => a.Fair key s ∧ AllFair key as (a.on s).2

/-- The sum of the steps that callers were told are kept and that no write has carried yet. -/
def owed (key : String) : List (Attempt σ) → Session σ → Int
  | [], _ => 0
  | a :: as, s => a.promised key s + owed key as (a.on s).2

def lost (key : String) : List (Attempt σ) → Session σ → Int
  | [], _ => 0
  | a :: as, s => a.dropped key s + lost key as (a.on s).2

def pending (key : String) (s : Session σ) : Int := s.cache.number s.now key

structure Failure (as : List (Attempt σ)) (s : Session σ) (before : List (Attempt σ)) (a : Attempt σ) : Prop where
  split : ∃ behind, as = before ++ a :: behind
  fails : a.Fails (ends before s)

/-- After every failure all that is owed is pending. -/
def PromisesKept (key : String) (as : List (Attempt σ)) (s : Session σ) : Prop :=
  ∀ before a, Failure as s before a → pending key (ends (before ++ [a]) s) = owed key (before ++ [a]) s

theorem failure_cons {a b : Attempt σ} {as before : List (Attempt σ)} {s : Session σ} :
    Failure (a :: as) s before b ↔
      (before = [] ∧ b = a ∧ a.Fails s) ∨ ∃ before', before = a :: before' ∧ Failure as (a.on s).2 before' b := by
  constructor
  · rintro ⟨⟨behind, hsplit⟩, hfails⟩
    cases before with
    | nil =>
      cases hsplit
      exact .inl ⟨rfl, rfl, hfails⟩
    | cons c before =>
      cases hsplit
      exact .inr ⟨before, rfl, ⟨behind, rfl⟩, hfails⟩
  · rintro (⟨rfl, rfl, hfails⟩ | ⟨before', rfl, ⟨behind, rfl⟩, hfails⟩)
    · exact ⟨⟨as, rfl⟩, hfails⟩
    · exact ⟨⟨behind, rfl⟩, hfails⟩

section

variable {key : String}

theorem allFair_append : ∀ {before behind : List (Attempt σ)} {s : Session σ},
    AllFair key (before ++ behind) s ↔ AllFair key before s ∧ AllFair key behind (ends before s)
  | [], _, _ => by simp [AllFair, ends]
  | a :: before, behind, s => by simp only [List.cons_append, AllFair, ends, allFair_append, and_assoc]

theorem ends_shows (hk : IsKey key) : ∀ {as : List (Attempt σ)} {s : Session σ} {w : Option Window},
    Shows s.cache key w → AllFair key as s → ∃ w', Shows (ends as s).cache key w'
  | [], _, w, hw, _ => ⟨w, hw⟩
  | a :: as, s, w, hw, hf => by
    obtain ⟨-, w', hw', -⟩ := Attempt.on_shows hk hf.1 hw
    have hrest := ends_shows hk hw' hf.2
    exact hrest

/-- **All that is owed is pending or lost**, besides what waited before. -/
theorem pending_add_lost (hk : IsKey key) : ∀ {as : List (Attempt σ)} {s : Session σ} {w : Option Window},
    Shows s.cache key w → AllFair key as s →
    pending key (ends as s) + lost key as s = waiting w + owed key as s
  | [], s, w, hw, _ => by
    rw [lost, owed, Int.add_zero, Int.add_zero]
    exact hw.number
  | a :: as, s, w, hw, hf => by
    obtain ⟨-, w', hw', hstep⟩ := Attempt.on_shows hk hf.1 hw
    have hrest := pending_add_lost hk hw' hf.2
    have hbalance : waiting w' + a.dropped key s = waiting w + a.promised key s := by
      rcases hstep with ⟨hok, hbalance⟩ | ⟨hfails, hsame, rfl, -⟩
      · rw [Attempt.dropped_of_ok hok, Int.add_zero, hbalance]
      · rw [Attempt.dropped_of_fails hfails, hsame, hw.number, waiting, Int.zero_add, Int.add_zero]
    rw [ends, lost, owed]
    omega

theorem lost_eq_zero : ∀ {as : List (Attempt σ)} {s : Session σ},
    (∀ before a, Failure as s before a → pending key (ends before s) = 0) → lost key as s = 0
  | [], _, _ => rfl
  | a :: as, s, h => by
    have hfirst : a.dropped key s = 0 := Attempt.dropped_eq_zero fun hfails => h [] a ⟨⟨as, rfl⟩, hfails⟩
    have hrest : lost key as (a.on s).2 = 0 :=
      lost_eq_zero fun before b hb => h (a :: before) b (failure_cons.2 (.inr ⟨before, rfl, hb⟩))
    rw [lost, hfirst, hrest, Int.add_zero]

theorem pending_eq_zero : ∀ {as : List (Attempt σ)} {s : Session σ},
    (∀ before a, Failure as s before a → lost key (before ++ [a]) s = 0) →
    ∀ before a, Failure as s before a → pending key (ends before s) = 0
  | [], s, _, before, a, h => by
    obtain ⟨behind, hsplit⟩ := h.split
    simp at hsplit
  | b :: as, s, hlost, before, a, h => by
    have hfirst : b.Fails s → pending key s = 0 := fun hfails => by
      have hone := hlost [] b ⟨⟨as, rfl⟩, hfails⟩
      rw [List.nil_append, lost, lost, Int.add_zero, Attempt.dropped_of_fails hfails] at hone
      exact hone
    rcases failure_cons.1 h with ⟨rfl, rfl, hfails⟩ | ⟨before, rfl, hlater⟩
    · exact hfirst hfails
    · refine pending_eq_zero (fun before c hc => ?_) before a hlater
      have hall := hlost (b :: before) c (failure_cons.2 (.inr ⟨before, rfl, hc⟩))
      rw [List.cons_append, lost, Attempt.dropped_eq_zero hfirst, Int.zero_add] at hall
      exact hall

theorem ends_append : ∀ {before behind : List (Attempt σ)} {s : Session σ},
    ends (before ++ behind) s = ends behind (ends before s)
  | [], _, _ => rfl
  | a :: before, behind, s => by rw [List.cons_append, ends, ends_append, ends]

theorem Failure.to_append {as before : List (Attempt σ)} {s : Session σ} {a : Attempt σ} (h : Failure as s before a) :
    ∃ behind, as = (before ++ [a]) ++ behind := by
  obtain ⟨behind, rfl⟩ := h.split
  exact ⟨behind, by rw [List.append_assoc]; rfl⟩

theorem Failure.of_append {before behind before' : List (Attempt σ)} {s : Session σ} {a : Attempt σ}
    (h : Failure before s before' a) : Failure (before ++ behind) s before' a := by
  obtain ⟨behind', rfl⟩ := h.split
  exact ⟨⟨behind' ++ behind, by rw [List.append_assoc]; rfl⟩, h.fails⟩

theorem Failure.window (hk : IsKey key) {as before : List (Attempt σ)} {s : Session σ} {a : Attempt σ}
    (hstart : Shows s.cache key none) (hf : AllFair key as s) (h : Failure as s before a) :
    Shows (ends (before ++ [a]) s).cache key none ∧
      ∃ opened, (ends before s).cache.held? (openedKey key) = some ⟨.int opened, none⟩ ∧
        opened + a.window < (a.before (ends before s)).clock := by
  obtain ⟨behind, rfl⟩ := h.split
  obtain ⟨hbefore, hfair, -⟩ := allFair_append.1 hf
  obtain ⟨w, hw⟩ := ends_shows hk hstart hbefore
  obtain ⟨-, w', hw', ⟨hok, -⟩ | ⟨-, -, rfl, o, rfl, hpassed⟩⟩ := Attempt.on_shows hk hfair hw
  · exact absurd h.fails hok
  · rw [ends_append]
    exact ⟨hw', o.opened, hw.2.1, hpassed⟩

/-- **A write that fails takes what waited with it.**  All that is owed is pending or lost; a step fails only behind its
window, and leaves nothing pending.  So promises are kept just if failures find nothing that waits. -/
theorem promises_kept_iff (hk : IsKey key) {s : Session σ}
    (hnone : s.cache.held? key = none ∧ s.cache.held? (openedKey key) = none) {as : List (Attempt σ)}
    (hf : AllFair key as s) :
    (∀ before behind, as = before ++ behind →
      pending key (ends before s) + lost key before s = owed key before s) ∧
    (∀ before a, Failure as s before a → (ends (before ++ [a]) s).cache.held? key = none ∧
      ∃ opened, (ends before s).cache.held? (openedKey key) = some ⟨.int opened, none⟩ ∧
        opened + a.window < (a.before (ends before s)).clock) ∧
    (PromisesKept key as s ↔ ∀ before a, Failure as s before a → pending key (ends before s) = 0) := by
  have hstart : Shows s.cache key none := hnone
  have hledger : ∀ before behind, as = before ++ behind →
      pending key (ends before s) + lost key before s = owed key before s := by
    rintro before behind rfl
    rw [pending_add_lost hk hstart (allFair_append.1 hf).1, waiting, Int.zero_add]
  have hwindow : ∀ before a, Failure as s before a → (ends (before ++ [a]) s).cache.held? key = none ∧
      ∃ opened, (ends before s).cache.held? (openedKey key) = some ⟨.int opened, none⟩ ∧
        opened + a.window < (a.before (ends before s)).clock := by
    intro before a h
    obtain ⟨hgone, hopened⟩ := h.window hk hstart hf
    exact ⟨hgone.1, hopened⟩
  -- by the ledger, promises are kept where nothing is lost
  have hkept : PromisesKept key as s ↔ ∀ before a, Failure as s before a → lost key (before ++ [a]) s = 0 := by
    refine forall_congr' fun before => forall_congr' fun a => forall_congr' fun h => ?_
    obtain ⟨behind, hsplit⟩ := h.to_append
    have hall := hledger _ _ hsplit
    constructor
    · intro hsame
      omega
    · intro hzero
      omega
  refine ⟨hledger, hwindow, hkept.trans ⟨pending_eq_zero, ?_⟩⟩
  intro hnothing before a h
  obtain ⟨behind, hsplit⟩ := h.to_append
  refine lost_eq_zero fun before' a' h' => hnothing before' a' ?_
  rw [hsplit]
  exact h'.of_append

end

def oneUser : Request :=
  { table := some "users", filter := [(.and, [(some "_id", .plain (.single "=" (.int 1)))])] }

def scored (step : Int) : Attempt Memory := ⟨id, oneUser, "score", step, 1000⟩

def scoredDown (step : Int) : Attempt Memory :=
  { scored step with
    before := fun s =>
      { s with
        clock := 2000
        pool := { s.pool with
          links := [], state := s.pool.state.refuse "mongodb://127.0.0.1:27017" ⟨.connection, "refused"⟩ } } }

section

variable {c : Cache} {w : Option Window} {step : Int}

theorem fair_scored (hc : c.WellFormed) (hw : Shows c scoreKey w) (hfits : Fits (waiting w + step)) :
    (scored step).Fair scoreKey (Walk.freshSession.withCache c) ∧
      (scoredDown step).Fair scoreKey (Walk.freshSession.withCache c) := by
  have hnumber : ∀ now, c.number now scoreKey = waiting w := fun _ => hw.number
  have hstart : IsReading 0 := ⟨by decide, by decide⟩
  have hlater : IsReading 2000 := ⟨by decide, by decide⟩
  have hwindow : 0 < 1000 := by decide
  refine ⟨⟨hc, ⟨rfl, rfl⟩, hstart, ?_, rfl, hwindow, rfl⟩, ⟨hc, ⟨rfl, rfl⟩, hlater, ?_, rfl, hwindow, rfl⟩⟩
  · exact (hnumber _).symm ▸ hfits
  · exact (hnumber _).symm ▸ hfits

theorem scored_on (hc : c.WellFormed) (hw : Shows c scoreKey w) (hopen : ∀ o, w = some o → o.opened = 0)
    (hfits : Fits (waiting w + step)) : ∃ c', c'.WellFormed ∧ Shows c' scoreKey (some ⟨0, waiting w + step⟩) ∧
      ((scored step).on (Walk.freshSession.withCache c)).2 = Walk.freshSession.withCache c' := by
  have hfair := (fair_scored hc hw hfits).1
  have hkept : next 0 step 1000 w = (.buffered, some ⟨0, waiting w + step⟩) := by
    cases w with
    | none => rw [waiting, Int.zero_add]; rfl
    | some o =>
      rw [next_open, hopen o rfl, if_neg (by decide)]
      rfl
  obtain ⟨hout, hshows⟩ : ((scored step).counted scoreKey (Walk.freshSession.withCache c)).1 = (next 0 step 1000 w).1 ∧
      Shows ((scored step).counted scoreKey (Walk.freshSession.withCache c)).2 scoreKey (next 0 step 1000 w).2 :=
    accumulate_shows hc ⟨_, _, _, rfl⟩ hw hfair.clock hfits
  have hwf : ((scored step).counted scoreKey (Walk.freshSession.withCache c)).2.WellFormed :=
    wellFormed_accumulate hc hw
  rw [hkept] at hout hshows
  exact ⟨_, hwf, hshows, by rw [Attempt.on_buffered hfair (Prod.ext hout rfl)]; rfl⟩

end

def scoring (first second third : Int) : List (Attempt Memory) := [scored first, scored second, scoredDown third]

theorem allFair_scoring {m n k : Int} (hm : Fits m) (hn : Fits (m + n)) (hk : Fits (m + n + k)) :
    AllFair scoreKey (scoring m n k) Walk.freshSession := by
  have hempty : Shows ({} : Cache) scoreKey none := ⟨rfl, rfl⟩
  have hm' : Fits (waiting none + m) := by rwa [waiting, Int.zero_add]
  obtain ⟨c, hc, hw, hon⟩ := scored_on Cache.wellFormed_empty hempty (fun o h => by cases h) hm'
  rw [waiting, Int.zero_add] at hw
  obtain ⟨c', hc', hw', hon'⟩ := scored_on hc hw (fun o h => by cases h; rfl) hn
  have hstart : Walk.freshSession = Walk.freshSession.withCache {} := rfl
  refine ⟨hstart ▸ (fair_scored Cache.wellFormed_empty hempty hm').1, ?_⟩
  rw [hstart, hon]
  refine ⟨(fair_scored hc hw hn).1, ?_⟩
  rw [hon']
  exact ⟨(fair_scored hc' hw' hk).2, trivial⟩

theorem promises_kept_iff_scoring : AllFair scoreKey (scoring 3 (-3) 5) Walk.freshSession ∧
    (PromisesKept scoreKey (scoring 3 (-3) 5) Walk.freshSession ↔ ∀ before a,
      Failure (scoring 3 (-3) 5) Walk.freshSession before a →
        pending scoreKey (ends before Walk.freshSession) = 0) := by
  have hf := allFair_scoring (m := 3) (n := -3) (k := 5) ⟨by decide, by decide⟩ ⟨by decide, by decide⟩
    ⟨by decide, by decide⟩
  exact ⟨hf, (promises_kept_iff ⟨_, _, _, rfl⟩ ⟨rfl, rfl⟩ hf).2.2⟩

/-- **A flush that fails breaks promises**: two steps were kept, and then neither is written nor pending. -/
theorem flush_breaks_promises : AllFair scoreKey (scoring 1 2 0) Walk.freshSession ∧
    ¬ PromisesKept scoreKey (scoring 1 2 0) Walk.freshSession := by
  refine ⟨allFair_scoring ⟨by decide, by decide⟩ ⟨by decide, by decide⟩ ⟨by decide, by decide⟩, fun hkept => ?_⟩
  have hfails : (scoredDown 0).Fails (ends [scored 1, scored 2] Walk.freshSession) :=
    Attempt.fails_of_isOk (by decide +kernel)
  have hsame := hkept [scored 1, scored 2] (scoredDown 0) ⟨⟨[], rfl⟩, hfails⟩
  exact absurd hsame (by decide +kernel)

end Counter

end DocQuery
