import DocQuery.Cache.Counter
import DocQuery.Proofs.Cache

/-!
# Buffered counters as windows

What a cache holds for a counter is a window: nothing, or the time at which it was opened with the sum of the steps
since.  A step changes the window as `Counter.next` says and nothing else in the cache (`accumulate_shows`,
`held?_accumulate`), since the keys of counters and those of their times are all apart.  So no step is lost or written
twice, however the counters alternate and the clock goes (`steps_conserved`).
-/
namespace DocQuery

namespace Digest

theorem length_round {state : List UInt32} (h : state.length = 8) (k w : UInt32) : (round state k w).length = 8 := by
  unfold round
  split
  · rfl
  · exact h

theorem length_rounds : ∀ (ks schedule : List UInt32) {state : List UInt32}, state.length = 8 →
    (rounds ks schedule state).length = 8
  | [], _, _, h => h
  | k :: ks, schedule, state, h => by
    rw [rounds]
    exact length_rounds ks _ (length_round h k _)

theorem length_blocks : ∀ (n : Nat) (ws : List UInt32) {state : List UInt32}, state.length = 8 →
    (blocks n ws state).length = 8
  | 0, _, _, h => h
  | n + 1, ws, state, h => by
    rw [blocks]
    refine length_blocks n _ ?_
    rw [block, List.length_zipWith, length_rounds roundWords _ h, h, Nat.min_self]

theorem length_ofText (s : String) : (ofText s).length = 64 := by
  have hwords : ∀ ws : List UInt32, (ws.flatMap bytesOf).length = 4 * ws.length := fun ws => by
    induction ws with
    | nil => rfl
    | cons w ws ih =>
      simp only [List.flatMap_cons, List.length_append, ih, List.length_cons, bytesOf, List.length_nil]
      omega
  have hbytes : ∀ bs : List UInt8, (bs.flatMap digits).length = 2 * bs.length := fun bs => by
    induction bs with
    | nil => rfl
    | cons b bs ih =>
      simp only [List.flatMap_cons, List.length_append, ih, List.length_cons, digits, List.length_nil]
      omega
  rw [ofText, String.length_ofList, hbytes, sha256, hwords, length_blocks _ _ (by rfl)]

/-- **All keys of one purpose have the same length.** -/
theorem length_key (purpose : String) (v : Value) : (key purpose v).length = purpose.length + 65 := by
  rw [key, String.length_append, String.length_append, length_ofText]
  rfl

end Digest

namespace Counter

def Fits (n : Int) : Prop := -Int.pow 2 63 ≤ n ∧ n < Int.pow 2 63

/-- A reading of the clock: dates lie within `2^62` milliseconds of the epoch. -/
def IsReading (t : Int) : Prop := -Int.pow 2 62 ≤ t ∧ t < Int.pow 2 62

theorem IsReading.fits {t : Int} (h : IsReading t) : Fits t :=
  ⟨Int.le_trans (by decide) h.1, Int.lt_of_lt_of_le h.2 (by decide)⟩

theorem signed?_int {n : Int} (h : Fits n) : (Value.int n).signed? = some n := if_pos h

theorem signed?_eq_some {v : Value} {n : Int} : v.signed? = some n ↔ v = .int n ∧ Fits n := by
  constructor
  · intro h
    cases v with
    | int m =>
      rw [Value.signed?] at h
      split at h
      · rename_i hm
        cases h
        exact ⟨rfl, hm⟩
      · cases h
    | _ => cases h
  · rintro ⟨rfl, hn⟩
    exact signed?_int hn

/-! ## Keys -/

def IsKey (k : String) : Prop := ∃ table field filter, k = key table field filter

theorem IsKey.length {k : String} (h : IsKey k) : k.length = 69 := by
  obtain ⟨table, field, filter, rfl⟩ := h
  exact Digest.length_key _ _

theorem IsKey.ne_openedKey {k k' : String} (h : IsKey k) (h' : IsKey k') : openedKey k' ≠ k := by
  intro heq
  have hlen := congrArg String.length heq
  rw [openedKey, String.length_append, h.length, h'.length] at hlen
  exact absurd hlen (by decide)

theorem openedKey_injective {k k' : String} (h : openedKey k = openedKey k') : k = k' := by
  unfold openedKey at h
  have hlists := congrArg String.toList h
  rw [String.toList_append, String.toList_append] at hlists
  exact String.toList_inj.1 (List.append_cancel_right hlists)

/-! ## Windows -/

/-- An open window: when it was opened, and the sum of the steps since. -/
structure Window where
  opened : Int
  sum : Int

def waiting : Option Window → Int
  | none => 0
  | some w => w.sum

/-- What a step makes of a counter: it opens a window, is added to the sum, or takes the sum out. -/
def next (time step : Int) (length : Nat) : Option Window → CounterOutcome × Option Window
  | none => (.buffered, some ⟨time, step⟩)
  | some w =>
    if windowEnd w.opened length < time then
      (if w.sum + step = 0 then .buffered else .flush (w.sum + step), none)
    else (.buffered, some ⟨w.opened, w.sum + step⟩)

def Shows (c : Cache) (key : String) : Option Window → Prop
  | none => c.held? key = none ∧ c.held? (openedKey key) = none
  | some w => c.held? key = some ⟨.int w.sum, none⟩ ∧ c.held? (openedKey key) = some ⟨.int w.opened, none⟩ ∧
      Fits w.sum ∧ IsReading w.opened

theorem Shows.number {c : Cache} {now : Nat} {key : String} {w : Option Window} (h : Shows c key w) :
    c.number now key = waiting w := by
  cases w with
  | none => exact Cache.number_of_held?_none h.1
  | some w =>
    rw [Cache.number_of_held? h.1, signed?_int h.2.2.1]
    rfl

theorem Shows.congr {c c' : Cache} {key : String} {w : Option Window} (h : Shows c key w)
    (hk : c'.held? key = c.held? key) (ho : c'.held? (openedKey key) = c.held? (openedKey key)) :
    Shows c' key w := by
  cases w with
  | none => exact ⟨hk.trans h.1, ho.trans h.2⟩
  | some w => exact ⟨hk.trans h.1, ho.trans h.2.1, h.2.2⟩

section Step

variable {c : Cache} {now : Nat} {time step : Int} {key : String} {length : Nat} {w : Option Window}

theorem Shows.lookup (h : Shows c key w) :
    (c.lookup now (openedKey key)).1.bind Value.signed? = w.map Window.opened ∧
      (c.lookup now (openedKey key)).2 = c := by
  unfold Cache.lookup
  cases w with
  | none =>
    refine ⟨by rw [Cache.get?_of_held?_none h.2]; rfl, Cache.purge_of_lasting fun e he => ?_⟩
    rw [h.2] at he
    cases he
  | some w =>
    refine ⟨?_, Cache.purge_of_lasting fun e he => ?_⟩
    · rw [Cache.get?_of_held? h.2.1 rfl, Option.bind_some, signed?_int h.2.2.2.fits]
      rfl
    · rw [h.2.1] at he
      cases he
      rfl

theorem accumulate_opening (h : Shows c key none) : accumulate c now time key step length =
    (.buffered, ((c.set now (openedKey key) (.int time) none none).increment now key step).2) := by
  unfold accumulate
  simp only [h.lookup.1, h.lookup.2, Option.map_none]

theorem accumulate_open {w : Window} (h : Shows c key (some w)) : accumulate c now time key step length =
    if windowEnd w.opened length < time then
      (if Value.wrapped (w.sum + step) = 0 then .buffered else .flush (Value.wrapped (w.sum + step)),
        ((c.increment now key step).2.delete key).delete (openedKey key))
    else (.buffered, (c.increment now key step).2) := by
  unfold accumulate
  simp only [h.lookup.1, h.lookup.2, Option.map_some]
  have hsum : (c.increment now key step).1 = Value.wrapped (w.sum + step) := by
    rw [show (c.increment now key step).1 = Value.wrapped (c.number now key + step) from rfl, h.number]
    rfl
  split
  · rw [hsum]
  · rfl

/-- **A step changes the window of its counter**, as `next` says. -/
theorem accumulate_shows (hc : c.WellFormed) (hk : IsKey key) (h : Shows c key w) (ht : IsReading time)
    (hs : Fits (waiting w + step)) :
    (accumulate c now time key step length).1 = (next time step length w).1 ∧
      Shows (accumulate c now time key step length).2 key (next time step length w).2 := by
  have hne : openedKey key ≠ key := hk.ne_openedKey hk
  cases w with
  | none =>
    rw [accumulate_opening h]
    have hnumber : (c.set now (openedKey key) (.int time) none none).number now key = 0 := by
      refine Cache.number_of_held?_none ?_
      rw [Cache.held?_set, if_neg hne, h.1]
    refine ⟨rfl, ?_, ?_, ?_, ht⟩
    · rw [waiting, Int.zero_add] at hs
      rw [Cache.held?_increment, if_pos rfl, hnumber, Int.zero_add, Value.wrapped_of_fits hs]
    · rw [Cache.held?_increment, if_neg hne.symm, Cache.held?_set, if_pos rfl]
      rfl
    · rwa [waiting, Int.zero_add] at hs
  | some w =>
    have hsum : Value.wrapped (w.sum + step) = w.sum + step := Value.wrapped_of_fits hs
    rw [accumulate_open h, hsum]
    by_cases hdue : windowEnd w.opened length < time
    · have hwf : (c.increment now key step).2.WellFormed := hc.increment step
      simp only [next, if_pos hdue]
      refine ⟨trivial, ?_, ?_⟩
      · rw [Cache.held?_delete hwf.delete, if_neg hne, Cache.held?_delete hwf, if_pos rfl]
      · rw [Cache.held?_delete hwf.delete, if_pos rfl]
    · simp only [next, if_neg hdue]
      refine ⟨trivial, ?_, ?_, hs, h.2.2.2⟩
      · rw [Cache.held?_increment, if_pos rfl, h.number]
        exact congrArg (fun n => some (CacheEntry.mk (.int n) none)) hsum
      · rw [Cache.held?_increment, if_neg hne.symm, h.2.1]

/-- **A step changes nothing under other keys.** -/
theorem held?_accumulate (hc : c.WellFormed) (h : Shows c key w) {key' : String} (hkey : key ≠ key')
    (hopened : openedKey key ≠ key') :
    (accumulate c now time key step length).2.held? key' = c.held? key' := by
  cases w with
  | none => rw [accumulate_opening h, Cache.held?_increment, if_neg hkey, Cache.held?_set, if_neg hopened]
  | some w =>
    rw [accumulate_open h]
    split
    · have hwf : (c.increment now key step).2.WellFormed := hc.increment step
      rw [Cache.held?_delete hwf.delete, if_neg hopened, Cache.held?_delete hwf, if_neg hkey,
        Cache.held?_increment, if_neg hkey]
    · rw [Cache.held?_increment, if_neg hkey]

theorem wellFormed_accumulate (hc : c.WellFormed) (h : Shows c key w) :
    (accumulate c now time key step length).2.WellFormed := by
  cases w with
  | none =>
    rw [accumulate_opening h]
    exact (hc.set _ _ _).increment _
  | some w =>
    rw [accumulate_open h]
    split
    · exact (hc.increment step).delete.delete
    · exact hc.increment step

end Step

/-! ## Runs -/

/-- One step of a counter: the time the cache goes by, the reading of the clock, the counter, and how long its window
stays open. -/
structure Call where
  now : Nat
  time : Int
  key : String
  step : Int
  length : Nat

def Call.on (a : Call) (c : Cache) : CounterOutcome × Cache := accumulate c a.now a.time a.key a.step a.length

inductive Event where
  | call (a : Call)
  | other (change : Cache → Cache)

def after : List Event → Cache → Cache
  | [], c => c
  | .call a :: r, c => after r (a.on c).2
  | .other change :: r, c => after r (change c)

def written : CounterOutcome → Int
  | .buffered => 0
  | .flush total => total

/-- The sum of all that is taken out of a counter to be written. -/
def flushed (key : String) : List Event → Cache → Int
  | [], _ => 0
  | .call a :: r, c => (if a.key = key then written (a.on c).1 else 0) + flushed key r (a.on c).2
  | .other change :: r, c => flushed key r (change c)

def given (key : String) : List Event → Int
  | [] => 0
  | .call a :: r => (if a.key = key then a.step else 0) + given key r
  | .other _ :: r => given key r

/-- A run on some counters: their sums stay within signed words of 64 bits, and nothing else writes under their keys. -/
def Fair (keys : List String) : List Event → Cache → Prop
  | [], _ => True
  | .call a :: r, c => a.key ∈ keys ∧ IsReading a.time ∧ Fits (c.number a.now a.key + a.step) ∧ Fair keys r (a.on c).2
  | .other change :: r, c => (change c).WellFormed ∧ (∀ key ∈ keys, (change c).held? key = c.held? key ∧
      (change c).held? (openedKey key) = c.held? (openedKey key)) ∧ Fair keys r (change c)

theorem next_open (time step : Int) (length : Nat) (w : Window) : next time step length (some w) =
    if windowEnd w.opened length < time then
      (if w.sum + step = 0 then .buffered else .flush (w.sum + step), none)
    else (.buffered, some ⟨w.opened, w.sum + step⟩) := rfl

theorem next_balance (time step : Int) (length : Nat) (w : Option Window) :
    written (next time step length w).1 + waiting (next time step length w).2 = waiting w + step := by
  cases w with
  | none => simp [next, written, waiting]
  | some w =>
    rw [next_open]
    split
    · by_cases hzero : w.sum + step = 0
      · simp [hzero, written, waiting]
      · simp [hzero, written, waiting]
    · simp [written, waiting]

theorem next_ne_flush_zero (time step : Int) (length : Nat) (w : Option Window) :
    (next time step length w).1 ≠ .flush 0 := by
  cases w with
  | none => simp [next]
  | some w =>
    rw [next_open]
    split
    · by_cases hzero : w.sum + step = 0
      · simp [hzero]
      · simp [hzero]
    · simp

theorem next_flush {time step : Int} {length : Nat} {w : Option Window} {total : Int}
    (h : (next time step length w).1 = .flush total) : (next time step length w).2 = none ∧ ∃ o, w = some o := by
  cases w with
  | none => cases h
  | some o =>
    rw [next_open] at h ⊢
    split at h
    · rename_i hdue
      exact ⟨by rw [if_pos hdue], o, rfl⟩
    · cases h

theorem next_eq_none {time step : Int} {length : Nat} {w : Window} (ho : IsReading w.opened) (ht : IsReading time)
    (h : (next time step length (some w)).2 = none) : w.opened + length < time := by
  have hdue : windowEnd w.opened length < time := by
    rw [next_open] at h
    refine Decidable.byContradiction fun hopen => ?_
    rw [if_neg hopen] at h
    cases h
  have hword : Int.pow 2 63 = 2 * Int.pow 2 62 := by decide
  have hpos : 0 < Int.pow 2 62 := by decide
  have hlow := ho.1
  have hhigh := ht.2
  unfold windowEnd at hdue
  omega

theorem on_shows {keys : List String} (hkeys : ∀ k ∈ keys, IsKey k) {c : Cache} (hc : c.WellFormed) {a : Call}
    (hmem : a.key ∈ keys) (ht : IsReading a.time) (hs : Fits (c.number a.now a.key + a.step))
    (hall : ∀ k ∈ keys, ∃ w, Shows c k w) :
    (a.on c).2.WellFormed ∧ ∀ k ∈ keys, ∀ w, Shows c k w →
      if a.key = k then (a.on c).1 = (next a.time a.step a.length w).1 ∧
        Shows (a.on c).2 k (next a.time a.step a.length w).2
      else Shows (a.on c).2 k w := by
  obtain ⟨v, hv⟩ := hall a.key hmem
  refine ⟨wellFormed_accumulate hc hv, fun k hk w hw => ?_⟩
  split
  · rename_i heq
    subst heq
    rw [hw.number] at hs
    exact accumulate_shows hc (hkeys _ hk) hw ht hs
  · rename_i hne
    refine hw.congr (held?_accumulate hc hv hne ?_) (held?_accumulate hc hv ?_ fun h => hne (openedKey_injective h))
    · exact (hkeys _ hk).ne_openedKey (hkeys _ hmem)
    · exact ((hkeys _ hmem).ne_openedKey (hkeys _ hk)).symm

/-- **Every state of a run shows a window for each counter**, and the steps given so far are written or wait there. -/
theorem run_shows {keys : List String} (hkeys : ∀ k ∈ keys, IsKey k) : ∀ {events : List Event} {c : Cache},
    c.WellFormed → (∀ k ∈ keys, ∃ w, Shows c k w) → Fair keys events c →
    (after events c).WellFormed ∧ ∀ k ∈ keys, ∀ w, Shows c k w →
      ∃ w', Shows (after events c) k w' ∧ flushed k events c + waiting w' = waiting w + given k events
  | [], c, hc, _, _ => ⟨hc, fun k _ w hw => ⟨w, hw, by simp [flushed, given]⟩⟩
  | .call a :: events, c, hc, hall, ⟨hmem, ht, hs, hf⟩ => by
    obtain ⟨hc', hstep⟩ := on_shows hkeys hc hmem ht hs hall
    have hall' : ∀ k ∈ keys, ∃ w, Shows (a.on c).2 k w := fun k hk => by
      obtain ⟨w, hw⟩ := hall k hk
      have hnext := hstep k hk w hw
      split at hnext
      · exact ⟨_, hnext.2⟩
      · exact ⟨_, hnext⟩
    obtain ⟨hwf, hrest⟩ := run_shows hkeys hc' hall' hf
    refine ⟨hwf, fun k hk w hw => ?_⟩
    have hnext := hstep k hk w hw
    unfold flushed given
    by_cases hkey : a.key = k
    · simp only [hkey, if_true] at hnext ⊢
      obtain ⟨w', hw', hbalance⟩ := hrest k hk _ hnext.2
      have hone := next_balance a.time a.step a.length w
      rw [← hnext.1] at hone
      exact ⟨w', hw', by omega⟩
    · simp only [hkey, if_false] at hnext ⊢
      obtain ⟨w', hw', hbalance⟩ := hrest k hk w hnext
      exact ⟨w', hw', by omega⟩
  | .other change :: events, c, hc, hall, ⟨hc', hsame, hf⟩ => by
    have hkeep : ∀ k ∈ keys, ∀ w, Shows c k w → Shows (change c) k w := fun k hk w hw =>
      hw.congr (hsame k hk).1 (hsame k hk).2
    have hall' : ∀ k ∈ keys, ∃ w, Shows (change c) k w := fun k hk => by
      obtain ⟨w, hw⟩ := hall k hk
      exact ⟨w, hkeep k hk w hw⟩
    obtain ⟨hwf, hrest⟩ := run_shows hkeys hc' hall' hf
    exact ⟨hwf, fun k hk w hw => hrest k hk w (hkeep k hk w hw)⟩

theorem fair_append {keys : List String} : ∀ {before behind : List Event} {c : Cache},
    Fair keys (before ++ behind) c ↔ Fair keys before c ∧ Fair keys behind (after before c)
  | [], _, _ => by simp [Fair, after]
  | .call a :: before, behind, c => by
    simp only [List.cons_append, Fair, after, fair_append, and_assoc]
  | .other change :: before, behind, c => by
    simp only [List.cons_append, Fair, after, fair_append, and_assoc]

/-- **No step of a counter is lost or written twice.**  What was flushed and what is pending add up to the steps that
the counter was given, no flush carries zero, and a counter goes only at a step of its own that comes after its window
has passed. -/
theorem steps_conserved {keys : List String} (hkeys : ∀ k ∈ keys, IsKey k) {c : Cache} (hc : c.WellFormed)
    (hnone : ∀ k ∈ keys, c.held? k = none ∧ c.held? (openedKey k) = none) {events : List Event}
    (hf : Fair keys events c) :
    (∀ k ∈ keys, ∀ now, flushed k events c + (after events c).number now k = given k events) ∧
    ∀ before a behind, events = before ++ .call a :: behind →
      (a.on (after before c)).1 ≠ .flush 0 ∧
      ∀ k ∈ keys, (after before c).held? k ≠ none → (a.on (after before c)).2.held? k = none →
        a.key = k ∧ ∃ opened, (after before c).held? (openedKey k) = some ⟨.int opened, none⟩ ∧
          opened + a.length < a.time := by
  have hall : ∀ k ∈ keys, ∃ w, Shows c k w := fun k hk => ⟨none, hnone k hk⟩
  refine ⟨fun k hk now => ?_, ?_⟩
  · obtain ⟨w, hw, hbalance⟩ := (run_shows hkeys hc hall hf).2 k hk none (hnone k hk)
    rw [hw.number, hbalance, waiting, Int.zero_add]
  · rintro before a behind rfl
    obtain ⟨hbefore, hmem, ht, hs, -⟩ := fair_append.1 hf
    obtain ⟨hwf, hrun⟩ := run_shows hkeys hc hall hbefore
    have hall' : ∀ k ∈ keys, ∃ w, Shows (after before c) k w := fun k hk => by
      obtain ⟨w, hw, -⟩ := hrun k hk none (hnone k hk)
      exact ⟨w, hw⟩
    obtain ⟨-, hstep⟩ := on_shows hkeys hwf hmem ht hs hall'
    constructor
    · obtain ⟨w, hw⟩ := hall' a.key hmem
      have hnext := hstep a.key hmem w hw
      rw [if_pos rfl] at hnext
      rw [hnext.1]
      exact next_ne_flush_zero _ _ _ _
    · intro k hk hthere hgone
      obtain ⟨w, hw⟩ := hall' k hk
      have hnext := hstep k hk w hw
      cases w with
      | none => exact absurd hw.1 hthere
      | some w =>
        split at hnext
        · rename_i hkey
          refine ⟨hkey, w.opened, hw.2.1, ?_⟩
          cases hclosed : (next a.time a.step a.length (some w)).2 with
          | none => exact next_eq_none hw.2.2.2 ht hclosed
          | some w' =>
            rw [hclosed] at hnext
            cases hnext.2.1.symm.trans hgone
        · cases hnext.1.symm.trans hgone

def scoreKey : String := key "users" "score" (.obj [("$and", .arr [.obj [("_id", .int 1)]])])

def hitsKey : String := key "users" "hits" (.obj [("$and", .arr [.obj [("_id", .int 1)]])])

def alternating : List Event :=
  [.call ⟨0, 1000, scoreKey, 3, 60⟩, .call ⟨0, 990, hitsKey, 5, 60⟩, .other (·.set 0 "page" (.int 1) none none),
    .call ⟨0, 1061, scoreKey, 4, 60⟩, .call ⟨0, 1060, hitsKey, -5, 60⟩]

theorem isKey_alternating : ∀ k ∈ [scoreKey, hitsKey], IsKey k :=
  List.forall_mem_cons.2 ⟨⟨_, _, _, rfl⟩, List.forall_mem_singleton.2 ⟨_, _, _, rfl⟩⟩

theorem fair_alternating : Fair [scoreKey, hitsKey] alternating {} := by
  have hfits : ∀ n : Int, -10 ≤ n ∧ n ≤ 10 → Fits n := fun n h =>
    ⟨Int.le_trans (by decide) h.1, Int.lt_of_le_of_lt h.2 (by decide)⟩
  have hreading : ∀ n : Int, 0 ≤ n ∧ n ≤ 2000 → IsReading n := fun n h =>
    ⟨Int.le_trans (by decide) h.1, Int.lt_of_le_of_lt h.2 (by decide)⟩
  have hpage : ∀ k : String, 5 < k.length → "page" ≠ k := by
    rintro k hk rfl
    exact absurd hk (by decide)
  refine ⟨by simp, hreading _ (by decide), hfits _ (by decide +kernel), by simp, hreading _ (by decide),
    hfits _ (by decide +kernel), ⟨by decide +kernel, by decide +kernel⟩, fun k hk => ?_, by simp,
    hreading _ (by decide), hfits _ (by decide +kernel), by simp, hreading _ (by decide),
    hfits _ (by decide +kernel), trivial⟩
  have hlen := (isKey_alternating k hk).length
  constructor
  · rw [Cache.held?_set, if_neg (hpage k (by omega))]
  · rw [Cache.held?_set, if_neg (hpage _ (by rw [openedKey, String.length_append]; omega))]

theorem steps_conserved_alternating : Fair [scoreKey, hitsKey] alternating {} ∧
    (∀ k ∈ [scoreKey, hitsKey], ∀ now,
      flushed k alternating {} + (after alternating {}).number now k = given k alternating) ∧
    flushed scoreKey alternating {} = 7 := by
  have hnone : ∀ k ∈ [scoreKey, hitsKey],
      ({} : Cache).held? k = none ∧ ({} : Cache).held? (openedKey k) = none := fun _ _ => ⟨rfl, rfl⟩
  have h := steps_conserved isKey_alternating Cache.wellFormed_empty hnone fair_alternating
  exact ⟨fair_alternating, h.1, by decide +kernel⟩

end Counter

end DocQuery
