import DocQuery.Proofs.Shortest
import Mathlib.Data.List.TakeWhile

/-!
# What the text of a float tells

The text of a decimal can be read back, with or without an exponent (`read_write`).  So the text of a float stands for a
number in its span (`holds_read`), and floats with one text are one float (`writeFloat_injective`).
-/
namespace DocQuery

namespace Text

theorem isDigit_of_mem_toString {n : Nat} {c : Char} (h : c ∈ (toString n).toList) : c.isDigit = true := by
  rw [Nat.toString_eq_ofList_toDigits, String.toList_ofList] at h
  exact Nat.isDigit_of_mem_toDigits (by decide) (by decide) h

theorem toString_ne_nil (n : Nat) : (toString n).toList ≠ [] := by
  rw [Nat.toString_eq_ofList_toDigits, String.toList_ofList]
  exact Nat.toDigits_ne_nil

end Text

namespace Decimal

/-! ## Reading decimals -/

def readPoint (s : List Char) : ℚ :=
  let fraction := (s.dropWhile (· != '.')).drop 1
  Nat.ofDigitChars 10 (s.takeWhile (· != '.') ++ fraction) 0 / 10 ^ fraction.length

def readExponent : List Char → ℤ
  | [] => 0
  | c :: r => if c = '-' then -(Nat.ofDigitChars 10 r 0 : ℤ) else Nat.ofDigitChars 10 r 0

def read (s : List Char) : ℚ :=
  readPoint (s.takeWhile (· != 'e')) * 10 ^ readExponent ((s.dropWhile (· != 'e')).drop 1)

section

variable {s t : List Char}

theorem takeWhile_of_free {c : Char} (h : c ∉ s) : s.takeWhile (· != c) = s :=
  List.takeWhile_eq_self_iff.2 fun d hd => by
    rw [bne_iff_ne]
    rintro rfl
    exact h hd

theorem dropWhile_of_free {c : Char} (h : c ∉ s) : s.dropWhile (· != c) = [] :=
  List.dropWhile_eq_nil_iff.2 fun d hd => by
    rw [bne_iff_ne]
    rintro rfl
    exact h hd

theorem takeWhile_append_of_free {c : Char} (h : c ∉ s) : (s ++ c :: t).takeWhile (· != c) = s := by
  rw [List.takeWhile_append, takeWhile_of_free h, if_pos rfl, List.takeWhile_cons_of_neg (by simp), List.append_nil]

theorem dropWhile_append_of_free {c : Char} (h : c ∉ s) : (s ++ c :: t).dropWhile (· != c) = c :: t := by
  rw [List.dropWhile_append, dropWhile_of_free h, List.isEmpty_nil, if_pos rfl, List.dropWhile_cons_of_neg (by simp)]

theorem readPoint_of_free (h : '.' ∉ s) : readPoint s = Nat.ofDigitChars 10 s 0 := by
  simp [readPoint, takeWhile_of_free h, dropWhile_of_free h]

theorem readPoint_append (h : '.' ∉ s) :
    readPoint (s ++ '.' :: t) = Nat.ofDigitChars 10 (s ++ t) 0 / 10 ^ t.length := by
  simp [readPoint, takeWhile_append_of_free h, dropWhile_append_of_free h]

theorem read_of_free (h : 'e' ∉ s) : read s = readPoint s := by
  simp [read, readExponent, takeWhile_of_free h, dropWhile_of_free h]

theorem read_append (h : 'e' ∉ s) : read (s ++ 'e' :: t) = readPoint s * 10 ^ readExponent t := by
  simp [read, takeWhile_append_of_free h, dropWhile_append_of_free h]

end

/-! ## Digits -/

section

variable {ds : List Char}

theorem not_mem_of_digits {c : Char} (h : ∀ d ∈ ds, d.isDigit = true) (hc : c.isDigit = false) : c ∉ ds := fun hm => by
  rw [h c hm] at hc
  cases hc

theorem digits_zeros (n : Nat) : ∀ d ∈ zeros n, d.isDigit = true := fun d hd => by
  rw [List.eq_of_mem_replicate hd]
  rfl

theorem length_zeros (n : Nat) : (zeros n).length = n := List.length_replicate

theorem zeros_append (m n : Nat) : zeros m ++ zeros n = zeros (m + n) := List.replicate_append_replicate

theorem ofDigitChars_zeros (n : Nat) : Nat.ofDigitChars 10 (zeros n ++ ds) 0 = Nat.ofDigitChars 10 ds 0 := by
  rw [zeros, Nat.ofDigitChars_append, Nat.ofDigitChars_replicate_zero, Nat.mul_zero]

theorem ofDigitChars_append_zeros (n : Nat) :
    Nat.ofDigitChars 10 (ds ++ zeros n) 0 = 10 ^ n * Nat.ofDigitChars 10 ds 0 := by
  rw [zeros, Nat.ofDigitChars_append, Nat.ofDigitChars_replicate_zero]

theorem readPoint_digits {fraction : List Char} (h : ∀ d ∈ ds, d.isDigit = true) :
    readPoint (ds ++ '.' :: fraction) = Nat.ofDigitChars 10 (ds ++ fraction) 0 / 10 ^ fraction.length :=
  readPoint_append (not_mem_of_digits h rfl)

theorem free_digits {fraction : List Char} (h : ∀ d ∈ ds, d.isDigit = true) (hf : ∀ d ∈ fraction, d.isDigit = true) :
    'e' ∉ ds ++ '.' :: fraction := by
  simp [not_mem_of_digits h, not_mem_of_digits hf]

theorem read_digits {fraction : List Char} (h : ∀ d ∈ ds, d.isDigit = true) (hf : ∀ d ∈ fraction, d.isDigit = true) :
    read (ds ++ '.' :: fraction) = Nat.ofDigitChars 10 (ds ++ fraction) 0 / 10 ^ fraction.length := by
  rw [read_of_free (free_digits h hf), readPoint_digits h]

/-- **A positional text stands for its digits, scaled by the place of the first of them.** -/
theorem read_positional (h : ∀ d ∈ ds, d.isDigit = true) (e : Int) :
    read (positional ds (e + ds.length - 1)) = Nat.ofDigitChars 10 ds 0 * 10 ^ e := by
  unfold positional
  by_cases hsmall : e + ds.length - 1 < 0
  · -- the digits are all behind the point, after zeros
    generalize hzeros : (-(e + ds.length - 1) - 1).toNat = n
    have hexp : e = -((n + ds.length : Nat) : Int) := by omega
    have hfraction : ∀ d ∈ zeros n ++ ds, d.isDigit = true := List.forall_mem_append.2 ⟨digits_zeros n, h⟩
    have hread := read_digits (digits_zeros 1) hfraction
    rw [ofDigitChars_zeros, ofDigitChars_zeros, List.length_append, length_zeros] at hread
    rw [if_pos hsmall, hexp, zpow_neg, zpow_natCast, ← div_eq_mul_inv, ← hread]
    rfl
  · generalize hwhole : (e + ds.length - 1).toNat + 1 = n
    have hexp : e = (n : Int) - ds.length := by omega
    rw [if_neg hsmall]
    simp only
    by_cases hlong : ds.length ≤ n
    · -- the digits are all before the point, with zeros after them
      have hdigits : ∀ d ∈ ds ++ zeros (n - ds.length), d.isDigit = true :=
        List.forall_mem_append.2 ⟨h, digits_zeros _⟩
      have hread := read_digits hdigits (digits_zeros 1)
      rw [List.append_assoc ds (zeros _) (zeros 1), zeros_append, ofDigitChars_append_zeros, length_zeros] at hread
      rw [List.take_of_length_le hlong, List.drop_eq_nil_of_le hlong, List.isEmpty_nil, if_pos rfl,
        hexp, ← Nat.cast_sub hlong, zpow_natCast]
      refine hread.trans ?_
      push_cast
      ring
    · -- the point is between the digits
      have htake : ∀ d ∈ ds.take n, d.isDigit = true := fun d hd => h d (List.mem_of_mem_take hd)
      have hdrop : ∀ d ∈ ds.drop n, d.isDigit = true := fun d hd => h d (List.mem_of_mem_drop hd)
      have hread := read_digits htake hdrop
      rw [List.take_append_drop, List.length_drop] at hread
      have hnonempty : (ds.drop n).isEmpty = false := by
        simp only [List.isEmpty_eq_false_iff, ne_eq, List.drop_eq_nil_iff]
        omega
      rw [hnonempty, if_neg Bool.false_ne_true, show n - ds.length = 0 by omega, zeros, List.replicate_zero,
        List.append_nil, hread, hexp, show (n : Int) - ds.length = -((ds.length - n : Nat) : Int) by omega,
        zpow_neg, zpow_natCast, div_eq_mul_inv]

theorem readExponent_int (n : Int) :
    readExponent ((if n < 0 then '-' else '+') :: (toString n.natAbs).toList) = n := by
  rw [Nat.toString_eq_ofList_toDigits, String.toList_ofList, readExponent,
    Nat.ofDigitChars_toDigits (by norm_num) (by norm_num)]
  split <;> split <;> first | omega | simp_all

/-- **A text with an exponent stands for its digits, scaled by the place of the first of them.** -/
theorem read_exponential (h : ∀ d ∈ ds, d.isDigit = true) (hne : ds ≠ []) (e : Int) :
    read (exponential ds (e + ds.length - 1)) = Nat.ofDigitChars 10 ds 0 * 10 ^ e := by
  have htake : ∀ d ∈ ds.take 1, d.isDigit = true := fun d hd => h d (List.mem_of_mem_take hd)
  have hdrop : ∀ d ∈ ds.drop 1, d.isDigit = true := fun d hd => h d (List.mem_of_mem_drop hd)
  have hlength : 0 < ds.length := List.length_pos_iff.2 hne
  unfold exponential
  simp only
  by_cases hone : ds.length ≤ 1
  · rw [List.take_of_length_le hone, List.drop_eq_nil_of_le hone, List.isEmpty_nil, if_pos rfl, List.append_nil,
      read_append (not_mem_of_digits h rfl), readExponent_int, readPoint_of_free (not_mem_of_digits h rfl),
      show e + ds.length - 1 = e by omega]
  · have hnonempty : (ds.drop 1).isEmpty = false := by
      simp only [List.isEmpty_eq_false_iff, ne_eq, List.drop_eq_nil_iff]
      exact hone
    rw [hnonempty, if_neg Bool.false_ne_true, read_append (free_digits htake hdrop), readExponent_int,
      readPoint_digits htake, List.take_append_drop, List.length_drop,
      show e + ds.length - 1 = e + (ds.length - 1 : Nat) by omega, zpow_add₀ (by norm_num), zpow_natCast]
    field_simp

end

/-! ## Floats -/

/-- **The text of a decimal can be read back.** -/
theorem read_write (l : Layout) (d : Digits) : read (l.write d).toList = d.rat := by
  have hdigits : ∀ c ∈ (toString d.digits).toList, c.isDigit = true := fun _ => Text.isDigit_of_mem_toString
  have hvalue : Nat.ofDigitChars 10 (toString d.digits).toList 0 = d.digits := by
    rw [Nat.toString_eq_ofList_toDigits, String.toList_ofList, Nat.ofDigitChars_toDigits (by norm_num) (by norm_num)]
  unfold Layout.write
  simp only [String.toList_ofList]
  split
  · rw [read_positional hdigits, hvalue, Digits.rat]
  · rw [read_exponential hdigits (Text.toString_ne_nil _), hvalue, Digits.rat]

theorem head_write (l : Layout) (d : Digits) : ∃ c r, (l.write d).toList = c :: r ∧ c.isDigit = true := by
  obtain ⟨c, r, hcr⟩ := List.exists_cons_of_ne_nil (Text.toString_ne_nil d.digits)
  have hc : c.isDigit = true := Text.isDigit_of_mem_toString (n := d.digits) (by rw [hcr]; exact List.mem_cons_self)
  unfold Layout.write positional exponential
  simp only [String.toList_ofList, hcr]
  split
  · split
    · exact ⟨'0', _, rfl, rfl⟩
    · exact ⟨c, _, rfl, hc⟩
  · exact ⟨c, _, rfl, hc⟩

def magnitudeText (l : Layout) (x : Float) : List Char :=
  match ofFloat? x with
  | none => ['0', '.', '0']
  | some d => (l.write d).toList

theorem toList_writeFloat (l : Layout) (x : Float) : (l.writeFloat x).toList =
    (if x.toBits.toNat / Nat.pow 2 63 = 1 then ['-'] else []) ++ magnitudeText l x := by
  unfold Layout.writeFloat magnitudeText
  simp only [String.toList_append]
  cases ofFloat? x with
  | none => split <;> simp
  | some d => split <;> simp

theorem head_magnitudeText (l : Layout) (x : Float) : ∃ c r, magnitudeText l x = c :: r ∧ c.isDigit = true := by
  unfold magnitudeText
  cases ofFloat? x with
  | none => exact ⟨'0', ['.', '0'], rfl, rfl⟩
  | some d => exact head_write l d

theorem holds_zero : (spanOf 0).Holds 0 := by
  have hlow : ((spanOf 0).low : ℚ) / (spanOf 0).denominator = 0 := by
    rw [show (spanOf 0).low = 0 from rfl, Nat.cast_zero, zero_div]
  unfold Span.Holds
  rw [if_pos (show (spanOf 0).closed = true from rfl), hlow]
  exact ⟨le_rfl, div_nonneg (Nat.cast_nonneg _) (Nat.cast_nonneg _)⟩

/-- **The text of a float stands for a number in its span.** -/
theorem holds_read (l : Layout) (x : Float) :
    (spanOf (x.toBits.toNat % 2 ^ 63)).Holds (read (magnitudeText l x)) := by
  unfold magnitudeText
  rw [ofFloat?_eq]
  by_cases h : x.toBits.toNat % 2 ^ 63 = 0
  · have hread : read ['0', '.', '0'] = 0 := by
      refine (read_digits (digits_zeros 1) (digits_zeros 1)).trans ?_
      rw [show Nat.ofDigitChars 10 (zeros 1 ++ zeros 1) 0 = 0 from rfl, Nat.cast_zero, zero_div]
    rw [if_pos h, h]
    exact hread ▸ holds_zero
  · rw [if_neg h]
    exact read_write l _ ▸ holds_shortestOf (by omega) (Nat.mod_lt _ (by norm_num))

/-- **Floats are told apart by their texts**, in every layout. -/
theorem writeFloat_injective (l : Layout) : Function.Injective l.writeFloat := by
  intro x y h
  have hlist := congrArg String.toList h
  rw [toList_writeFloat, toList_writeFloat] at hlist
  have hsign : ∀ {x : Float} {s : List Char}, '-' :: s ≠ magnitudeText l x := by
    intro x s hs
    obtain ⟨c, r, hc, hdigit⟩ := head_magnitudeText l x
    rw [hc] at hs
    rw [← (List.cons.inj hs).1] at hdigit
    cases hdigit
  -- the sign is told by the first character, and the magnitude by what is read off the rest
  have hboth : (x.toBits.toNat / Nat.pow 2 63 = 1 ↔ y.toBits.toNat / Nat.pow 2 63 = 1) ∧
      magnitudeText l x = magnitudeText l y := by
    split at hlist
    · split at hlist
      · exact ⟨by simp [*], (List.cons.inj hlist).2⟩
      · exact absurd hlist hsign
    · split at hlist
      · exact absurd hlist.symm hsign
      · exact ⟨by simp [*], hlist⟩
  have hmagnitude : x.toBits.toNat % 2 ^ 63 = y.toBits.toNat % 2 ^ 63 :=
    holds_unique (holds_read l x) (hboth.2 ▸ holds_read l y)
  have hbits : x.toBits = y.toBits := by
    have hx := x.toBits.toNat_lt
    have hy := y.toBits.toNat_lt
    have hfirst := hboth.1
    simp only [Nat.pow_eq] at hfirst
    exact UInt64.toNat_inj.1 (by omega)
  rcases x with ⟨⟨_, _⟩⟩
  rcases y with ⟨⟨_, _⟩⟩
  cases hbits
  rfl

end Decimal

end DocQuery
