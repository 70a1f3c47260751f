import DocQuery.Proofs.Equality
import DocQuery.Value.Order

/-!
# The order of numbers

Floats are compared by their places (`orderFloats?_eq`), from the infinity below to the infinity above, so that all
that are numbers have an order, which is one up to the sign of zero (`float_eq_of_beq`).  Whole numbers are compared as
floats, and these are numbers, however large (`isNumber_ofInt`).
-/
namespace DocQuery.Value

section

open Float.Model UnpackedFloat

/-- Where a float stands: on which side of zero and whether it is finite, then its exponent and its digits. -/
def place : UnpackedFloat → Int × Int × Int
  | .infinity .negative => (-2, 0, 0)
  | .finite .negative m e _ => (-1, -e, -m)
  | .zero _ => (0, 0, 0)
  | .finite .positive m e _ => (1, e, m)
  | .infinity .positive => (2, 0, 0)
  | .notANumber => (3, 0, 0)

def comparePlaces : Int × Int × Int → Int × Int × Int → Ordering :=
  compareLex (compareOn fun p => p.1) (compareLex (compareOn fun p => p.2.1) (compareOn fun p => p.2.2))

instance : Std.TransCmp comparePlaces := by
  unfold comparePlaces
  infer_instance

theorem compare_neg (m n : Int) : compare (-m) (-n) = (compare m n).swap := by
  rcases Int.lt_trichotomy m n with h | rfl | h
  · rw [Int.compare_eq_lt.2 h, Int.compare_eq_gt.2 (Int.neg_lt_neg h)]
    rfl
  · rw [Int.compare_eq_eq.2 rfl, Int.compare_eq_eq.2 rfl]
    rfl
  · rw [Int.compare_eq_gt.2 h, Int.compare_eq_lt.2 (Int.neg_lt_neg h)]
    rfl

theorem compare_natCast (m n : Nat) : compare (m : Int) (n : Int) = compare m n := by
  rcases Nat.lt_trichotomy m n with h | rfl | h
  · rw [Nat.compare_eq_lt.2 h, Int.compare_eq_lt.2 (Int.ofNat_lt.2 h)]
  · rw [Nat.compare_eq_eq.2 rfl, Int.compare_eq_eq.2 rfl]
  · rw [Nat.compare_eq_gt.2 h, Int.compare_eq_gt.2 (Int.ofNat_lt.2 h)]

theorem compare_eq_places {a b : UnpackedFloat} (ha : a ≠ .notANumber) (hb : b ≠ .notANumber) :
    UnpackedFloat.compare a b = some (comparePlaces (place a) (place b)) := by
  cases a with
  | notANumber => exact absurd rfl ha
  | infinity s =>
    cases b with
    | notANumber => exact absurd rfl hb
    | infinity t => cases s <;> cases t <;> rfl
    | zero t => cases s <;> rfl
    | finite t m e h => cases s <;> cases t <;> rfl
  | zero s =>
    cases b with
    | notANumber => exact absurd rfl hb
    | infinity t => cases t <;> rfl
    | zero t => rfl
    | finite t m e h => cases t <;> rfl
  | finite s m e h =>
    cases b with
    | notANumber => exact absurd rfl hb
    | infinity t => cases s <;> cases t <;> rfl
    | zero t => cases s <;> rfl
    | finite t m' e' h' =>
      cases s with
      | negative =>
        cases t with
        | negative =>
          change some ((compare e e').then (compare m m')).swap =
            some ((compare (-e) (-e')).then (compare (-(m : Int)) (-(m' : Int))))
          rw [compare_neg, compare_neg, compare_natCast, Ordering.swap_then]
        | positive => rfl
      | positive =>
        cases t with
        | negative => rfl
        | positive =>
          change some ((compare e e').then (compare m m')) =
            some ((compare e e').then (compare (m : Int) (m' : Int)))
          rw [compare_natCast]

theorem compare_notANumber_left (b : UnpackedFloat) : UnpackedFloat.compare .notANumber b = none := by
  cases b <;> rfl

theorem compare_notANumber_right (a : UnpackedFloat) : UnpackedFloat.compare a .notANumber = none := by
  cases a with
  | infinity s => cases s <;> rfl
  | finite s m e h => cases s <;> rfl
  | _ => rfl

theorem unpacked_compare_swap (a b : UnpackedFloat) :
    UnpackedFloat.compare b a = (UnpackedFloat.compare a b).map .swap := by
  by_cases ha : a = .notANumber
  · rw [ha, compare_notANumber_left, compare_notANumber_right]
    rfl
  · by_cases hb : b = .notANumber
    · rw [hb, compare_notANumber_left, compare_notANumber_right]
      rfl
    · have hswap : comparePlaces (place b) (place a) = (comparePlaces (place a) (place b)).swap :=
        Std.OrientedCmp.eq_swap
      rw [compare_eq_places ha hb, compare_eq_places hb ha, hswap]
      rfl

theorem lt_iff_compare (x y : Float) : x < y ↔ UnpackedFloat.compare (unpacked x) (unpacked y) = some .lt := by
  change decide (((unpacked x).compare (unpacked y) == some .lt) = true) = true ↔ _
  rw [decide_eq_true_iff, beq_iff_eq]

theorem orderFloats?_eq_compare (x y : Float) : orderFloats? x y = UnpackedFloat.compare (unpacked x) (unpacked y) := by
  have heq : (x == y) = (UnpackedFloat.compare (unpacked x) (unpacked y) == some .eq) := rfl
  have hgt : y < x ↔ UnpackedFloat.compare (unpacked x) (unpacked y) = some .gt := by
    rw [lt_iff_compare, unpacked_compare_swap (unpacked x) (unpacked y)]
    rcases UnpackedFloat.compare (unpacked x) (unpacked y) with _ | _ | _ | _ <;> simp
  unfold orderFloats?
  simp only [heq, lt_iff_compare x y, hgt]
  rcases UnpackedFloat.compare (unpacked x) (unpacked y) with _ | _ | _ | _ <;> rfl

def IsNumber (x : Float) : Prop := unpacked x ≠ .notANumber

/-- **Numbers are compared by their places.** -/
theorem orderFloats?_eq {x y : Float} (hx : IsNumber x) (hy : IsNumber y) :
    orderFloats? x y = some (comparePlaces (place (unpacked x)) (place (unpacked y))) := by
  rw [orderFloats?_eq_compare, compare_eq_places hx hy]

theorem orderFloats?_swap (x y : Float) : orderFloats? y x = (orderFloats? x y).map .swap := by
  rw [orderFloats?_eq_compare, orderFloats?_eq_compare, unpacked_compare_swap]

theorem orderFloats?_lt_iff {x y : Float} : orderFloats? x y = some .lt ↔ x < y := by
  rw [orderFloats?_eq_compare, lt_iff_compare]

theorem orderFloats?_eq_iff {x y : Float} : orderFloats? x y = some .eq ↔ (x == y) = true := by
  rw [orderFloats?_eq_compare]
  exact beq_iff_eq.symm

theorem orderFloats?_self {x : Float} {o : Ordering} (h : orderFloats? x x = some o) : o = .eq := by
  rw [orderFloats?_eq_compare] at h
  by_cases hx : unpacked x = .notANumber
  · rw [hx, compare_notANumber_left] at h
    cases h
  · rw [compare_eq_places hx hx] at h
    exact (Option.some.inj h).symm.trans Std.ReflCmp.compare_self

theorem orderFloats?_trans {x y z : Float} (hx : IsNumber x) (hy : IsNumber y) (hz : IsNumber z)
    (hxy : orderFloats? x y ≠ some .gt) (hyz : orderFloats? y z ≠ some .gt) : orderFloats? x z ≠ some .gt := by
  rw [orderFloats?_eq hx hy, Ne, Option.some.injEq, ← Ordering.isLE_iff_ne_gt] at hxy
  rw [orderFloats?_eq hy hz, Ne, Option.some.injEq, ← Ordering.isLE_iff_ne_gt] at hyz
  rw [orderFloats?_eq hx hz, Ne, Option.some.injEq, ← Ordering.isLE_iff_ne_gt]
  exact Std.TransCmp.isLE_trans hxy hyz

/-! ## Equal floats -/

def bitParts : UnpackedFloat → Sign × Nat × Nat
  | .infinity s => (s, 2047, 0)
  | .zero s => (s, 0, 0)
  | .finite s m e _ => if m < 0x10000000000000 then (s, 0, m) else (s, (e + 1075).toNat, m - 0x10000000000000)
  | .notANumber => (.positive, 0, 0)

theorem bitParts_unpack {b : BitVec Format.binary64.numBits} (h : UnpackedFloat.unpack .binary64 b ≠ .notANumber) :
    bitParts (UnpackedFloat.unpack .binary64 b) =
      (.ofBitVec (unpackSign b), (unpackExponent b).toNat, (unpackMantissa b).toNat) := by
  have hm : (unpackMantissa b).toNat < 0x10000000000000 := (unpackMantissa b).isLt
  unfold UnpackedFloat.unpack at h ⊢
  dsimp only at h ⊢
  by_cases hlast : unpackExponent b = -1#_
  · rw [if_pos hlast] at h ⊢
    by_cases hzero : unpackMantissa b = 0#_
    · rw [if_pos hzero, hlast, hzero]
      rfl
    · rw [if_neg hzero] at h
      exact absurd rfl h
  · rw [if_neg hlast]
    by_cases hfirst : unpackExponent b = 0#_
    · rw [if_pos hfirst]
      by_cases hzero : unpackMantissa b = 0#_
      · rw [dif_pos hzero, hfirst, hzero]
        rfl
      · rw [dif_neg hzero]
        show (if _ then _ else _) = _
        rw [if_pos hm, hfirst]
        rfl
    · have hn : (1#1 ++ unpackMantissa b).toNat = 0x10000000000000 + (unpackMantissa b).toNat := by
        have hor := Nat.two_pow_add_eq_or_of_lt (unpackMantissa b).isLt 1
        rw [BitVec.toNat_append, Nat.shiftLeft_eq, Nat.mul_comm]
        exact hor.symm
      rw [if_neg hfirst]
      show (if _ then _ else _) = _
      rw [if_neg (by omega)]
      refine Prod.ext rfl (Prod.ext ?_ ?_)
      · show (((unpackExponent b).toNat : Int) - (1023 + 52) + 1075).toNat = (unpackExponent b).toNat
        omega
      · show (1#1 ++ unpackMantissa b).toNat - 0x10000000000000 = (unpackMantissa b).toNat
        omega

theorem bits_eq {b b' : BitVec Format.binary64.numBits} (hs : unpackSign b = unpackSign b')
    (he : unpackExponent b = unpackExponent b') (hm : unpackMantissa b = unpackMantissa b') : b = b' := by
  have hs' : b.toNat / 0x8000000000000000 % 2 = b'.toNat / 0x8000000000000000 % 2 := by
    unfold unpackSign at hs
    simpa [Nat.shiftRight_eq_div_pow] using congrArg BitVec.toNat hs
  have he' : b.toNat / 0x10000000000000 % 2048 = b'.toNat / 0x10000000000000 % 2048 := by
    simpa [unpackExponent, Nat.shiftRight_eq_div_pow] using congrArg BitVec.toNat he
  have hm' : b.toNat % 0x10000000000000 = b'.toNat % 0x10000000000000 := by
    simpa [unpackMantissa] using congrArg BitVec.toNat hm
  have hb : b.toNat < 0x10000000000000000 := b.isLt
  have hb' : b'.toNat < 0x10000000000000000 := b'.isLt
  refine BitVec.eq_of_toNat_eq ?_
  omega

theorem unpacked_injective {x y : Float} (hx : IsNumber x) (h : unpacked x = unpacked y) : x = y := by
  have hsign : ∀ s s' : BitVec 1, Sign.ofBitVec s = Sign.ofBitVec s' → s = s' := fun s s' he => by
    have h01 : ∀ s : BitVec 1, s = 0#1 ∨ s = 1#1 := by decide
    rcases h01 s with rfl | rfl <;> rcases h01 s' with rfl | rfl <;> first | rfl | cases he
  have hparts := congrArg bitParts h
  have hy : IsNumber y := by rwa [IsNumber, ← h]
  rw [unpacked, unpacked, bitParts_unpack hx, bitParts_unpack hy] at hparts
  obtain ⟨hs, hrest⟩ := Prod.mk.inj hparts
  obtain ⟨he, hm⟩ := Prod.mk.inj hrest
  have hbits := bits_eq (hsign _ _ hs) (BitVec.eq_of_toNat_eq he) (BitVec.eq_of_toNat_eq hm)
  obtain ⟨⟨⟨b⟩, _⟩⟩ := x
  obtain ⟨⟨⟨b'⟩, _⟩⟩ := y
  cases (hbits : b = b')
  rfl

theorem eq_of_comparePlaces {p q : Int × Int × Int} (h : comparePlaces p q = .eq) : p = q := by
  simpa [comparePlaces, compareLex, compareOn, Prod.ext_iff] using h

theorem eq_of_place_eq {a b : UnpackedFloat} (h : place a = place b) : a = b ∨ ∃ s, a = .zero s := by
  rcases a with ⟨_ | _⟩ | _ | s | ⟨_ | _, m, e, hm⟩
  case zero => exact .inr ⟨s, rfl⟩
  all_goals
    left
    rcases b with ⟨_ | _⟩ | _ | _ | ⟨_ | _, n, f, hn⟩ <;> unfold place at h <;> dsimp only at h <;>
      rw [Prod.mk.injEq, Prod.mk.injEq] at h <;> try (first | rfl | omega)
  -- what is left are two finite ones of one sign
  all_goals
    obtain ⟨rfl, rfl⟩ : m = n ∧ e = f := by omega
    rfl

/-- **Floats other than zero are equal only to themselves.** -/
theorem float_eq_of_beq {x y : Float} (hx : (x == 0) = false) (h : (x == y) = true) : x = y := by
  have heq := orderFloats?_eq_iff.2 h
  have hnx : IsNumber x := fun hnan => by
    rw [orderFloats?_eq_compare, hnan, compare_notANumber_left] at heq
    cases heq
  have hny : IsNumber y := fun hnan => by
    rw [orderFloats?_eq_compare, hnan, compare_notANumber_right] at heq
    cases heq
  rw [orderFloats?_eq hnx hny, Option.some.injEq] at heq
  rcases eq_of_place_eq (eq_of_comparePlaces heq) with hsame | ⟨s, hzero⟩
  · exact unpacked_injective hnx hsame
  · have hx0 : (x == 0) = (UnpackedFloat.compare (unpacked x) (unpacked 0) == some .eq) := rfl
    rw [hx0, hzero] at hx
    cases hx

/-! ## Whole numbers -/

theorem roundWithAccuracy_ne (spec : Format) (s : Sign) (m : Nat) (e : Int) (accuracy : Accuracy) :
    roundWithAccuracy spec s m e accuracy ≠ .notANumber := by
  fun_cases roundWithAccuracy spec s m e accuracy with
  | case1 => rintro ⟨⟩
  | case2 => rintro ⟨⟩

theorem ofNat_ne (spec : Format) (n : Nat) : UnpackedFloat.ofNat spec n ≠ .notANumber := by
  unfold UnpackedFloat.ofNat UnpackedFloat.ofInt UnpackedFloat.normalize
  split
  · exact roundWithAccuracy_ne _ _ _ _ _
  · rintro ⟨⟩
  · exact roundWithAccuracy_ne _ _ _ _ _

theorem mul_finite_ne {spec : Format} {a : UnpackedFloat} (ha : a ≠ .notANumber) (s : Sign) (m : Nat) (e : Int)
    (h : 0 < m) : UnpackedFloat.mul spec a (.finite s m e h) ≠ .notANumber := by
  cases a with
  | notANumber => exact absurd rfl ha
  | finite s' m' e' h' => exact roundWithAccuracy_ne _ _ _ _ _
  | _ => rintro ⟨⟩

theorem neg_ne {a : UnpackedFloat} (ha : a ≠ .notANumber) : a.neg ≠ .notANumber := by
  cases a with
  | notANumber => exact absurd rfl ha
  | _ => rintro ⟨⟩

theorem unpack_ne {spec : Format} {b : BitVec spec.numBits} (h : unpackExponent b = -1#_ → unpackMantissa b = 0#_) :
    UnpackedFloat.unpack spec b ≠ .notANumber := by
  unfold UnpackedFloat.unpack
  dsimp only
  by_cases hlast : unpackExponent b = -1#_
  · rw [if_pos hlast, if_pos (h hlast)]
    rintro ⟨⟩
  · rw [if_neg hlast]
    by_cases hfirst : unpackExponent b = 0#_
    · rw [if_pos hfirst]
      by_cases hzero : unpackMantissa b = 0#_
      · rw [dif_pos hzero]
        rintro ⟨⟩
      · rw [dif_neg hzero]
        rintro ⟨⟩
    · rw [if_neg hfirst]
      rintro ⟨⟩

theorem unpack_packComponents_ne {spec : Format} {s : Sign} {e : BitVec spec.exponentBits}
    {m : BitVec spec.mantissaBitsWithoutImplicit} (h : e = -1#_ → m = 0#_) :
    UnpackedFloat.unpack spec (packComponents spec s e m) ≠ .notANumber := by
  refine unpack_ne ?_
  rw [unpackExponent_packComponents, unpackMantissa_packComponents]
  exact h

theorem unpack_pack_ne {spec : Format} {a : UnpackedFloat} (ha : a ≠ .notANumber) :
    UnpackedFloat.unpack spec (UnpackedFloat.pack spec a) ≠ .notANumber := by
  fun_cases UnpackedFloat.pack spec a with
  | case1 => exact absurd rfl ha
  | case2 s => exact unpack_packComponents_ne fun _ => rfl
  | case3 s => exact unpack_packComponents_ne fun _ => rfl
  | case4 s m e hm biasedExponent h => exact unpack_packComponents_ne fun _ => rfl
  | case5 s m e hm digits biasedExponent hfits =>
    -- an exponent that fits is not the one of infinities
    refine unpack_packComponents_ne fun he => absurd he ?_
    rw [← BitVec.toNat_inj, BitVec.toNat_ofNat, Nat.mod_eq_of_lt (by omega), BitVec.neg_one_eq_allOnes,
      BitVec.toNat_allOnes]
    omega
  | case6 s m e hm digits biasedExponent hfits =>
    refine unpack_packComponents_ne fun he => absurd he ?_
    have hpos := Nat.one_lt_two_pow (Nat.pos_iff_ne_zero.1 spec.he)
    rw [← BitVec.toNat_inj, BitVec.toNat_zero, BitVec.neg_one_eq_allOnes, BitVec.toNat_allOnes]
    omega

theorem ofScientific_ne (spec : Format) (n : Nat) : UnpackedFloat.ofScientific spec n 0 ≠ .notANumber := by
  fun_cases UnpackedFloat.ofScientific spec n 0 with
  | case4 => exact roundWithAccuracy_ne _ _ _ _ _
  | case5 _ _ _ hneg => exact absurd (Int.le_refl 0) hneg
  | _ => rintro ⟨⟩

theorem unpacked_one : ∃ h, unpacked (Float.ofBits 0x3FF0000000000000) = .finite .positive 0x10000000000000 (-52) h :=
  ⟨by decide, rfl⟩

theorem isNumber_ofNat (n : Nat) : IsNumber (Float.ofNat n) := by
  change unpacked (Float.ofScientific n false 0) ≠ .notANumber
  unfold Float.ofScientific
  split
  · obtain ⟨h, hone⟩ := unpacked_one
    change UnpackedFloat.unpack _ (UnpackedFloat.pack _ (UnpackedFloat.mul _ (unpacked n.toUInt64.toFloat)
      (unpacked (Float.ofBits 0x3FF0000000000000)))) ≠ _
    rw [hone]
    exact unpack_pack_ne (mul_finite_ne (unpack_pack_ne (ofNat_ne _ _)) _ _ _ _)
  · exact unpack_pack_ne (ofScientific_ne _ n)

theorem isNumber_ofInt (n : Int) : IsNumber (Float.ofInt n) := by
  cases n with
  | ofNat n => exact isNumber_ofNat n
  | negSucc n => exact unpack_pack_ne (neg_ne (isNumber_ofNat _))

end

theorem isNumber_of_isFinite {x : Float} (h : x.isFinite = true) : IsNumber x := by
  intro hnan
  have hfinite : (unpacked x).isFinite = true := h
  rw [hnan] at hfinite
  cases hfinite

theorem WellFormed.isNumber {v : Value} (hv : v.WellFormed) {x : Float} (h : v.number? = some x) : IsNumber x := by
  cases hv with
  | int n => exact Option.some.inj h ▸ isNumber_ofInt n
  | float hx => exact Option.some.inj h ▸ isNumber_of_isFinite hx
  | _ => cases h

end DocQuery.Value
