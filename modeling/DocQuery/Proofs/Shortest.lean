import DocQuery.Decimal
import Mathlib.Algebra.Order.Field.Power
import Mathlib.Algebra.Order.Field.Rat
import Mathlib.Tactic.FieldSimp
import Mathlib.Tactic.Linarith
import Mathlib.Tactic.NormNum
import Mathlib.Tactic.Positivity
import Mathlib.Tactic.Ring

/-!
# Where the shortest decimal of a float lies

A grid that is finer than a span is wide has a point in it, and the search for digits ends at such a grid; so the
shortest decimal of a float lies in its span (`holds_shortestOf`).  The spans of the floats follow on each other without
sharing a number (`holds_unique`).
-/
namespace DocQuery.Decimal

/-! ## Decimals in spans -/

theorem zpow_eq_div {b : ℚ} (hb : 0 < b) (e : Int) : b ^ e = b ^ e.toNat / b ^ (-e).toNat := by
  have hsplit : e = (e.toNat : Int) - ((-e).toNat : Int) := by omega
  conv_lhs => rw [hsplit]
  rw [zpow_sub₀ hb.ne', zpow_natCast, zpow_natCast]

def Digits.rat (d : Digits) : ℚ := d.digits * 10 ^ d.exponent

def Span.Holds (s : Span) (x : ℚ) : Prop :=
  if s.closed then (s.low / s.denominator : ℚ) ≤ x ∧ x ≤ s.high / s.denominator
  else (s.low / s.denominator : ℚ) < x ∧ x < s.high / s.denominator

theorem le_rat_iff {s : Span} (hs : 0 < s.denominator) (d : Digits) (n : Nat) :
    n * Nat.pow 10 (-d.exponent).toNat ≤ d.digits * Nat.pow 10 d.exponent.toNat * s.denominator ↔
      (n / s.denominator : ℚ) ≤ d.rat := by
  have hden : (0 : ℚ) < s.denominator := by exact_mod_cast hs
  rw [Digits.rat, zpow_eq_div (by norm_num), ← mul_div_assoc, div_le_div_iff₀ hden (by positivity)]
  exact_mod_cast Iff.rfl

theorem rat_le_iff {s : Span} (hs : 0 < s.denominator) (d : Digits) (n : Nat) :
    d.digits * Nat.pow 10 d.exponent.toNat * s.denominator ≤ n * Nat.pow 10 (-d.exponent).toNat ↔
      d.rat ≤ (n / s.denominator : ℚ) := by
  have hden : (0 : ℚ) < s.denominator := by exact_mod_cast hs
  rw [Digits.rat, zpow_eq_div (by norm_num), ← mul_div_assoc, div_le_div_iff₀ (by positivity) hden]
  exact_mod_cast Iff.rfl

theorem Span.holds_iff {s : Span} (hs : 0 < s.denominator) (d : Digits) : s.holds d = true ↔ s.Holds d.rat := by
  unfold Span.holds Span.Holds
  simp only
  split
  · rw [Bool.and_eq_true, decide_eq_true_eq, decide_eq_true_eq, le_rat_iff hs, rat_le_iff hs]
  · rw [Bool.and_eq_true, decide_eq_true_eq, decide_eq_true_eq, ← not_le, ← not_le, rat_le_iff hs, le_rat_iff hs,
      not_le, not_le]

/-! ## The search for a short decimal -/

section

variable {s : Span}

theorem Span.floorAt_le (hs : 0 < s.denominator) (e : Int) :
    (⟨s.floorAt e, e⟩ : Digits).rat ≤ (s.value / s.denominator : ℚ) := by
  rw [← rat_le_iff hs]
  unfold Span.floorAt
  have hdiv := Nat.div_mul_le_self (s.value * Nat.pow 10 (-e).toNat) (s.denominator * Nat.pow 10 e.toNat)
  calc _ = s.value * Nat.pow 10 (-e).toNat / (s.denominator * Nat.pow 10 e.toNat) *
        (s.denominator * Nat.pow 10 e.toNat) := by ring
    _ ≤ _ := hdiv

theorem Span.lt_floorAt_succ (hs : 0 < s.denominator) (e : Int) :
    (s.value / s.denominator : ℚ) < (⟨s.floorAt e + 1, e⟩ : Digits).rat := by
  rw [← not_le, ← rat_le_iff hs, not_le]
  unfold Span.floorAt
  have hpos : 0 < s.denominator * Nat.pow 10 e.toNat := Nat.mul_pos hs (Nat.pow_pos (by norm_num))
  have hdiv := Nat.lt_div_mul_add hpos (a := s.value * Nat.pow 10 (-e).toNat)
  calc _ < _ := hdiv
    _ = _ := by ring

theorem Span.holds_onGrid {e : Int} {d : Digits} (h : s.onGrid e = some d) : s.holds d = true := by
  unfold Span.onGrid at h
  simp only at h
  split at h
  · rename_i hlower hupper
    rw [Bool.and_eq_true] at hlower
    cases h
    split
    · exact hlower.1
    · exact hupper
  · rename_i hlower _
    rw [Bool.and_eq_true] at hlower
    cases h
    exact hlower.1
  · rename_i hupper
    cases h
    exact hupper
  · cases h

/-- **A grid that is finer than a span is wide has a point in it**, if it has one up to the value. -/
theorem Span.onGrid_isSome (hs : 0 < s.denominator) {e : Int} (hlow : s.low < s.value) (hhigh : s.value < s.high)
    (hfloor : s.floorAt e ≠ 0) (hwide : (s.low / s.denominator : ℚ) + 10 ^ e < s.high / s.denominator) :
    (s.onGrid e).isSome = true := by
  have hstep : (⟨s.floorAt e + 1, e⟩ : Digits).rat = (⟨s.floorAt e, e⟩ : Digits).rat + 10 ^ e := by
    simp only [Digits.rat]
    push_cast
    ring
  have hden : (0 : ℚ) < s.denominator := by exact_mod_cast hs
  have hlow' : (s.low / s.denominator : ℚ) < s.value / s.denominator := by
    rw [div_lt_div_iff_of_pos_right hden]
    exact_mod_cast hlow
  have hhigh' : (s.value / s.denominator : ℚ) < s.high / s.denominator := by
    rw [div_lt_div_iff_of_pos_right hden]
    exact_mod_cast hhigh
  have hinside : ∀ {x : ℚ}, (s.low / s.denominator : ℚ) < x → x < s.high / s.denominator → s.Holds x := by
    intro x hx hx'
    unfold Span.Holds
    split
    · exact ⟨hx.le, hx'.le⟩
    · exact ⟨hx, hx'⟩
  have hbelow := Span.floorAt_le hs e
  have habove := Span.lt_floorAt_succ hs e
  -- the grid has a point on either side of the value; if both were outside, the span would lie between them
  have hone : s.holds ⟨s.floorAt e, e⟩ = true ∨ s.holds ⟨s.floorAt e + 1, e⟩ = true := by
    rw [Span.holds_iff hs, Span.holds_iff hs]
    by_cases hl : (s.low / s.denominator : ℚ) < (⟨s.floorAt e, e⟩ : Digits).rat
    · exact .inl (hinside hl (hbelow.trans_lt hhigh'))
    · refine .inr (hinside (hlow'.trans habove) ?_)
      rw [hstep]
      linarith
  have hne : (s.floorAt e != 0) = true := by simpa using hfloor
  unfold Span.onGrid
  simp only [hne, Bool.and_true]
  rcases hone with h | h
  · rw [h]
    cases s.holds ⟨s.floorAt e + 1, e⟩ <;> rfl
  · rw [h]
    cases s.holds ⟨s.floorAt e, e⟩ <;> rfl

theorem Span.holds_search : ∀ {fuel k : Nat} {e : Int}, k < fuel → (s.onGrid (e - k)).isSome = true →
    s.holds (s.search fuel e) = true
  | fuel + 1, k, e, hk, h => by
    rw [Span.search]
    cases hg : s.onGrid e with
    | some d => exact Span.holds_onGrid hg
    | none =>
      cases k with
      | zero =>
        rw [Int.natCast_zero, Int.sub_zero, hg] at h
        cases h
      | succ k =>
        refine Span.holds_search (k := k) (by omega) ?_
        rw [show e - 1 - (k : Int) = e - ((k + 1 : Nat) : Int) by omega]
        exact h

theorem Span.floorAt_leading : ∀ {fuel : Nat} {e : Int}, s.floorAt (e - fuel) ≠ 0 → s.floorAt (s.leading fuel e) ≠ 0
  | 0, e, h => by
    rw [Span.leading]
    rwa [Int.natCast_zero, Int.sub_zero] at h
  | fuel + 1, e, h => by
    rw [Span.leading]
    split
    · refine Span.floorAt_leading ?_
      rwa [show e - 1 - (fuel : Int) = e - ((fuel + 1 : Nat) : Int) by omega]
    · assumption

theorem Span.floorAt_ne_zero (hs : 0 < s.denominator) {e : Int} :
    s.floorAt e ≠ 0 ↔ (10 : ℚ) ^ e ≤ s.value / s.denominator := by
  have hbelow := Span.floorAt_le hs e
  have habove := Span.lt_floorAt_succ hs e
  simp only [Digits.rat] at hbelow habove
  have hpow : (0 : ℚ) < 10 ^ e := by positivity
  constructor
  · intro h
    have hone : (1 : ℚ) ≤ s.floorAt e := by exact_mod_cast Nat.one_le_iff_ne_zero.2 h
    nlinarith
  · intro h h0
    rw [h0] at habove
    push_cast at habove
    linarith

theorem rat_strip : ∀ (fuel : Nat) (d : Digits), (d.strip fuel).rat = d.rat
  | 0, _ => rfl
  | fuel + 1, d => by
    rw [Digits.strip]
    split
    · rename_i h
      rw [rat_strip fuel]
      obtain ⟨n, hn⟩ := Nat.dvd_of_mod_eq_zero h.1
      simp only [Digits.rat, hn, Nat.mul_div_cancel_left n (show 0 < 10 by norm_num)]
      rw [zpow_add₀ (by norm_num)]
      push_cast
      ring
    · rfl

end

/-! ## The span of a binary fraction -/

/-- The distance of a fraction to the lower end of its span, in quarters of the last digit. -/
def below (powerOfTwo : Bool) : Nat := if powerOfTwo then 1 else 2

theorem scale_ofBinary (n : Nat) (e : Int) :
    ((n * Nat.pow 2 (e - 2).toNat : Nat) : ℚ) / (Nat.pow 2 (2 - e).toNat : Nat) = n * 2 ^ (e - 2) := by
  rw [zpow_eq_div (by norm_num) (e - 2), show -(e - 2) = 2 - e by ring, Nat.pow_eq, Nat.pow_eq]
  push_cast
  rw [mul_div_assoc]

theorem denominator_pos (m : Nat) (e : Int) (p : Bool) : 0 < (Span.ofBinary m e p).denominator :=
  Nat.pow_pos (by norm_num)

theorem low_ofBinary (m : Nat) (e : Int) (p : Bool) :
    ((Span.ofBinary m e p).low / (Span.ofBinary m e p).denominator : ℚ) = (4 * m - below p : Nat) * 2 ^ (e - 2) :=
  scale_ofBinary _ e

theorem value_ofBinary (m : Nat) (e : Int) (p : Bool) :
    ((Span.ofBinary m e p).value / (Span.ofBinary m e p).denominator : ℚ) = (4 * m : Nat) * 2 ^ (e - 2) :=
  scale_ofBinary _ e

theorem high_ofBinary (m : Nat) (e : Int) (p : Bool) :
    ((Span.ofBinary m e p).high / (Span.ofBinary m e p).denominator : ℚ) = (4 * m + 2 : Nat) * 2 ^ (e - 2) :=
  scale_ofBinary _ e

theorem ten_pow_le {k : Int} (hlow : -1074 ≤ k) (hhigh : k ≤ 1025) :
    (10 : ℚ) ^ (k * (if 0 ≤ k then 302 else 300) / 1000 + 1 - 40) ≤ 2 ^ (k - 1) := by
  have hten : (1 : ℚ) ≤ 10 := by norm_num
  have htwo : (1 : ℚ) ≤ 2 := by norm_num
  split
  · -- `1000 ≤ 1024`, so three powers of ten are less than ten powers of two
    obtain ⟨j, hj⟩ : ∃ j : Nat, (j : Int) = k / 10 := ⟨(k / 10).toNat, by omega⟩
    calc (10 : ℚ) ^ (k * 302 / 1000 + 1 - 40) ≤ 10 ^ ((3 * j : Int) - 1) := zpow_le_zpow_right₀ hten (by omega)
      _ = 1000 ^ j / 10 := by
        rw [zpow_sub₀ (by norm_num), zpow_mul, zpow_natCast]
        norm_num
      _ ≤ 1024 ^ j / 2 := by
        have hpow : (1000 : ℚ) ^ j ≤ 1024 ^ j := pow_le_pow_left₀ (by norm_num) (by norm_num) j
        have hpos : (0 : ℚ) < 1000 ^ j := by positivity
        linarith
      _ = 2 ^ ((10 * j : Int) - 1) := by
        rw [zpow_sub₀ (by norm_num), zpow_mul, zpow_natCast]
        norm_num
      _ ≤ 2 ^ (k - 1) := zpow_le_zpow_right₀ htwo (by omega)
  · -- `2 ^ 13 ≤ 10 ^ 4`, so thirteen powers of two are less than four powers of ten
    obtain ⟨j, hj⟩ : ∃ j : Nat, (j : Int) = (13 - k) / 13 := ⟨((13 - k) / 13).toNat, by omega⟩
    calc (10 : ℚ) ^ (k * 300 / 1000 + 1 - 40) ≤ 10 ^ (-(4 * j : Int)) := zpow_le_zpow_right₀ hten (by omega)
      _ = (10000 ^ j)⁻¹ := by
        rw [zpow_neg, zpow_mul, zpow_natCast]
        norm_num
      _ ≤ (8192 ^ j)⁻¹ := by
        have hpow : (8192 : ℚ) ^ j ≤ 10000 ^ j := pow_le_pow_left₀ (by norm_num) (by norm_num) j
        exact inv_anti₀ (by positivity) hpow
      _ = 2 ^ (-(13 * j : Int)) := by
        rw [zpow_neg, zpow_mul, zpow_natCast]
        norm_num
      _ ≤ 2 ^ (k - 1) := zpow_le_zpow_right₀ htwo (by omega)

section

variable {m : Nat} {e : Int} {p : Bool}

theorem two_pow_le_value (hm : 0 < m) : (2 : ℚ) ^ ((Nat.log2 m : Int) + 1 + e - 1) ≤
    (Span.ofBinary m e p).value / (Span.ofBinary m e p).denominator := by
  have hlead : ((2 ^ Nat.log2 m : Nat) : ℚ) ≤ m := by exact_mod_cast Nat.log2_self_le (by omega)
  rw [value_ofBinary]
  calc (2 : ℚ) ^ ((Nat.log2 m : Int) + 1 + e - 1) = (2 ^ Nat.log2 m : Nat) * 2 ^ e := by
        rw [show (Nat.log2 m : Int) + 1 + e - 1 = Nat.log2 m + e by ring, zpow_add₀ (by norm_num), zpow_natCast]
        push_cast
        rfl
    _ ≤ m * 2 ^ e := mul_le_mul_of_nonneg_right hlead (by positivity)
    _ = (4 * m : Nat) * 2 ^ (e - 2) := by
        rw [zpow_sub₀ (by norm_num)]
        push_cast
        ring

theorem floorAt_leading_ne_zero (hm : 0 < m) (hsize : m < 2 ^ 53) (hlow : -1074 ≤ e) (hhigh : e ≤ 972) :
    (Span.ofBinary m e p).floorAt ((Span.ofBinary m e p).leading 40 (leadingBound m e)) ≠ 0 := by
  have hlog : Nat.log2 m < 53 := (Nat.log2_lt (by omega)).2 hsize
  refine Span.floorAt_leading ((Span.floorAt_ne_zero (denominator_pos m e p)).2 ?_)
  exact (ten_pow_le (by omega) (by omega)).trans (two_pow_le_value hm)

/-- **Sixteen digits behind the first one the grid is finer than the span of a fraction is wide.** -/
theorem onGrid_ofBinary (hm : 0 < m) (hwidth : 4 * m < (below p + 2) * 10 ^ 16) {top : Int}
    (htop : (Span.ofBinary m e p).floorAt top ≠ 0) :
    ((Span.ofBinary m e p).onGrid (top - (16 : Nat))).isSome = true := by
  have hden := denominator_pos m e p
  have hbelow : 1 ≤ below p ∧ below p ≤ 2 := by cases p <;> decide
  have hvalue := (Span.floorAt_ne_zero hden).1 htop
  have hfine : (10 : ℚ) ^ (top - (16 : Nat)) = 10 ^ top / 10 ^ 16 := by
    rw [zpow_sub₀ (by norm_num), zpow_natCast]
  have hup : 0 < Nat.pow 2 (e - 2).toNat := Nat.pow_pos (by norm_num)
  have hscale : (0 : ℚ) < 2 ^ (e - 2) := by positivity
  have hlow : (Span.ofBinary m e p).low < (Span.ofBinary m e p).value :=
    Nat.mul_lt_mul_of_pos_right (by omega : 4 * m - below p < 4 * m) hup
  have hhigh : (Span.ofBinary m e p).value < (Span.ofBinary m e p).high :=
    Nat.mul_lt_mul_of_pos_right (by omega : 4 * m < 4 * m + 2) hup
  refine Span.onGrid_isSome hden hlow hhigh ((Span.floorAt_ne_zero hden).2 ?_) ?_
  · rw [hfine]
    exact (div_le_self (by positivity) (by norm_num)).trans hvalue
  · rw [low_ofBinary, high_ofBinary, hfine, Nat.cast_sub (by omega)]
    rw [value_ofBinary] at hvalue
    have hratio : ((4 * m : Nat) : ℚ) / 10 ^ 16 < below p + 2 := by
      rw [div_lt_iff₀ (by norm_num)]
      exact_mod_cast hwidth
    calc ((4 * m : Nat) - below p : ℚ) * 2 ^ (e - 2) + 10 ^ top / 10 ^ 16
        ≤ ((4 * m : Nat) - below p : ℚ) * 2 ^ (e - 2) + (4 * m : Nat) * 2 ^ (e - 2) / 10 ^ 16 := by gcongr
      _ = ((4 * m : Nat) - below p + (4 * m : Nat) / 10 ^ 16 : ℚ) * 2 ^ (e - 2) := by ring
      _ < ((4 * m : Nat) - below p + (below p + 2) : ℚ) * 2 ^ (e - 2) := by gcongr
      _ = (4 * m + 2 : Nat) * 2 ^ (e - 2) := by
          push_cast
          ring

/-- **The shortest decimal of a fraction lies in its span.** -/
theorem holds_shortest (hm : 0 < m) (hsize : m < 2 ^ 53) (hp : p = true → m ≤ 2 ^ 52) (hlow : -1074 ≤ e)
    (hhigh : e ≤ 972) : (Span.ofBinary m e p).Holds (shortest m e p).rat := by
  have hwidth : 4 * m < (below p + 2) * 10 ^ 16 := by
    cases p with
    | true =>
      have hpower := hp rfl
      rw [show below true = 1 from rfl]
      omega
    | false =>
      rw [show below false = 2 from rfl]
      omega
  have hpoint := onGrid_ofBinary hm hwidth (floorAt_leading_ne_zero hm hsize hlow hhigh)
  rw [shortest, rat_strip]
  exact (Span.holds_iff (denominator_pos m e p) _).1 (Span.holds_search (by norm_num) hpoint)

end

/-! ## The spans of the floats

The magnitudes of the floats are counted by their bits: each begins where the one before ends, and as only every other
one has its ends, no number belongs to two of them.
-/

def significand (n : Nat) : Nat := if n / 2 ^ 52 = 0 then n % 2 ^ 52 else n % 2 ^ 52 + 2 ^ 52

def binaryExponent (n : Nat) : Int := if n / 2 ^ 52 = 0 then -1074 else ((n / 2 ^ 52 : Nat) : Int) - 1075

/-- Whether the floats below lie twice as close. -/
def isLeast (n : Nat) : Bool := n % 2 ^ 52 == 0 && 1 < n / 2 ^ 52

def spanOf (n : Nat) : Span := Span.ofBinary (significand n) (binaryExponent n) (isLeast n)

def lowEnd (n : Nat) : ℚ := (4 * significand n - below (isLeast n) : Nat) * 2 ^ (binaryExponent n - 2)

/-- **A span ends where the next one begins.** -/
theorem lowEnd_succ (n : Nat) : lowEnd (n + 1) = (4 * significand n + 2 : Nat) * 2 ^ (binaryExponent n - 2) := by
  by_cases hlast : n % 2 ^ 52 + 1 = 2 ^ 52
  · have hdiv : (n + 1) / 2 ^ 52 = n / 2 ^ 52 + 1 := by omega
    have hmod : (n + 1) % 2 ^ 52 = 0 := by omega
    by_cases hzero : n / 2 ^ 52 = 0
    · have hleast : isLeast (n + 1) = false := by rw [isLeast, hdiv, hmod, hzero]; rfl
      have hexp : binaryExponent (n + 1) = binaryExponent n := by
        rw [binaryExponent, binaryExponent, hdiv, hzero]
        rfl
      have hsig : 4 * significand (n + 1) - 2 = 4 * significand n + 2 := by
        rw [significand, significand, hdiv, hmod, if_neg (by omega), if_pos hzero]
        omega
      rw [lowEnd, hleast, hexp, show below false = 2 from rfl, hsig]
    · have hleast : isLeast (n + 1) = true := by
        simp only [isLeast, hdiv, hmod, Bool.and_eq_true, decide_eq_true_eq, beq_self_eq_true, true_and]
        omega
      have hexp : binaryExponent (n + 1) - 2 = (binaryExponent n - 2) + 1 := by
        simp only [binaryExponent, hdiv, hzero, if_false, Nat.succ_ne_zero]
        push_cast
        ring
      have hsig : (4 * significand (n + 1) - 1) * 2 = 4 * significand n + 2 := by
        simp only [significand, hdiv, hmod, hzero, if_false, Nat.succ_ne_zero]
        omega
      rw [lowEnd, hleast, hexp, show below true = 1 from rfl, ← hsig, zpow_add_one₀ (by norm_num)]
      push_cast
      ring
  · have hdiv : (n + 1) / 2 ^ 52 = n / 2 ^ 52 := by omega
    have hmod : (n + 1) % 2 ^ 52 = n % 2 ^ 52 + 1 := by omega
    have hleast : isLeast (n + 1) = false := by
      rw [isLeast, hmod, beq_false_of_ne (Nat.succ_ne_zero _), Bool.false_and]
    have hexp : binaryExponent (n + 1) = binaryExponent n := by simp only [binaryExponent, hdiv]
    have hsig : 4 * significand (n + 1) - 2 = 4 * significand n + 2 := by
      simp only [significand, hdiv, hmod]
      split <;> omega
    rw [lowEnd, hleast, hexp, show below false = 2 from rfl, hsig]

theorem strictMono_lowEnd : StrictMono lowEnd := by
  refine strictMono_nat_of_lt_succ fun n => ?_
  rw [lowEnd_succ]
  have hscale : (0 : ℚ) < 2 ^ (binaryExponent n - 2) := by positivity
  refine mul_lt_mul_of_pos_right ?_ hscale
  exact_mod_cast (by omega : 4 * significand n - below (isLeast n) < 4 * significand n + 2)

theorem holds_spanOf {n : Nat} {x : ℚ} (h : (spanOf n).Holds x) :
    if n % 2 = 0 then lowEnd n ≤ x ∧ x ≤ lowEnd (n + 1) else lowEnd n < x ∧ x < lowEnd (n + 1) := by
  have hparity : significand n % 2 = n % 2 := by
    unfold significand
    split <;> omega
  have hclosed : (spanOf n).closed = (n % 2 == 0) := by rw [← hparity]; rfl
  unfold Span.Holds at h
  rw [hclosed, show spanOf n = Span.ofBinary _ _ _ from rfl, low_ofBinary, high_ofBinary, ← lowEnd_succ, ← lowEnd] at h
  simpa only [beq_iff_eq] using h

/-- **No number lies in the spans of two floats.** -/
theorem holds_unique {m n : Nat} {x : ℚ} (hm : (spanOf m).Holds x) (hn : (spanOf n).Holds x) : m = n := by
  have hlt : ∀ {m n : Nat}, (spanOf m).Holds x → (spanOf n).Holds x → ¬ m < n := by
    intro m n hm hn hlt
    have hm := holds_spanOf hm
    have hn := holds_spanOf hn
    have hle : lowEnd (m + 1) ≤ lowEnd n := strictMono_lowEnd.monotone hlt
    -- the two could only meet in an end, which just one of them has
    by_cases hnext : m + 1 = n
    · subst hnext
      split at hm
      · rw [if_neg (by omega)] at hn
        exact absurd (hm.2.trans_lt hn.1) (lt_irrefl x)
      · split at hn
        · exact absurd (hm.2.trans_le hn.1) (lt_irrefl x)
        · exact absurd (hm.2.trans hn.1) (lt_irrefl x)
    · have hstrict : lowEnd (m + 1) < lowEnd n := strictMono_lowEnd (by omega)
      have hxm : x ≤ lowEnd (m + 1) := by
        split at hm
        · exact hm.2
        · exact hm.2.le
      have hxn : lowEnd n ≤ x := by
        split at hn
        · exact hn.1
        · exact hn.1.le
      exact absurd ((hxm.trans_lt hstrict).trans_le hxn) (lt_irrefl x)
  exact le_antisymm (not_lt.1 (hlt hn hm)) (not_lt.1 (hlt hm hn))

def shortestOf (n : Nat) : Digits := shortest (significand n) (binaryExponent n) (isLeast n)

theorem holds_shortestOf {n : Nat} (hpos : 0 < n) (hsize : n < 2 ^ 63) : (spanOf n).Holds (shortestOf n).rat := by
  refine holds_shortest ?_ ?_ ?_ ?_ ?_
  · unfold significand
    split <;> omega
  · unfold significand
    split <;> omega
  · intro hleast
    simp only [isLeast, Bool.and_eq_true, beq_iff_eq, decide_eq_true_eq] at hleast
    unfold significand
    split <;> omega
  · unfold binaryExponent
    split <;> omega
  · unfold binaryExponent
    split <;> omega

theorem ofFloat?_eq (x : Float) : ofFloat? x =
    if x.toBits.toNat % 2 ^ 63 = 0 then none else some (shortestOf (x.toBits.toNat % 2 ^ 63)) := by
  generalize hb : x.toBits.toNat = b
  have hmod : b % 2 ^ 63 % 2 ^ 52 = b % 2 ^ 52 := by omega
  have hdiv : b % 2 ^ 63 / 2 ^ 52 = b / 2 ^ 52 % 2 ^ 11 := by omega
  unfold ofFloat? shortestOf significand binaryExponent isLeast
  simp only [hb, hmod, hdiv, Nat.pow_eq]
  by_cases hexp : b / 2 ^ 52 % 2 ^ 11 = 0
  · by_cases hzero : b % 2 ^ 52 = 0
    · rw [if_pos hexp, if_pos hzero, if_pos (by omega)]
    · rw [if_pos hexp, if_neg hzero, if_neg (by omega), if_pos hexp, if_pos hexp, hexp]
      simp
  · have hleast : (b / 2 ^ 52 % 2 ^ 11 != 1) = decide (1 < b / 2 ^ 52 % 2 ^ 11) := by
      rw [Bool.eq_iff_iff, bne_iff_ne, decide_eq_true_eq]
      omega
    rw [if_neg hexp, if_neg (by omega), if_neg hexp, if_neg hexp, hleast]

end DocQuery.Decimal
