import DocQuery.Filter
import DocQuery.Proofs.NativeId
import DocQuery.Proofs.NumberOrder
import Mathlib.Data.String.Basic

/-!
# What is compared, and what is equal

Values are compared within their kind only, in one of four ways (`order?_eq_some_iff`).  Where they are compared, being
neither before nor behind is equality as filters see it, but for identifiers: they are compared by their bytes and
equal by their text, so that two spellings of one identifier are on one place and yet not equal
(`order_and_equality_agree_iff`).
-/
namespace DocQuery

namespace ObjectId

theorem compareBytes_eq : ∀ as bs : List UInt8, compareBytes as bs = Ord.compare as bs
  | [], [] => rfl
  | [], _ :: _ => rfl
  | _ :: _, [] => rfl
  | a :: as, b :: bs => by
    rw [compareBytes, List.compare_cons_cons, compareBytes_eq as bs]
    by_cases hlt : a < b
    · rw [if_pos hlt, Std.compare_eq_lt.2 hlt]
      rfl
    · rw [if_neg hlt]
      by_cases hgt : b < a
      · rw [if_pos hgt, Std.compare_eq_gt.2 hgt]
        rfl
      · obtain rfl : a = b := UInt8.le_antisymm (UInt8.not_lt.1 hgt) (UInt8.not_lt.1 hlt)
        rw [if_neg hgt, Std.ReflOrd.compare_self]
        rfl

theorem compare_eq (x y : ObjectId) : x.compare y = Ord.compare x.bytes y.bytes := compareBytes_eq x.bytes y.bytes

theorem compare_swap (x y : ObjectId) : y.compare x = (x.compare y).swap := by
  rw [compare_eq, compare_eq]
  exact Std.OrientedOrd.eq_swap

theorem compare_trans {x y z : ObjectId} (hxy : x.compare y ≠ .gt) (hyz : y.compare z ≠ .gt) : x.compare z ≠ .gt := by
  rw [compare_eq, Ne, ← Ordering.isLE_iff_ne_gt] at *
  exact Std.TransCmp.isLE_trans hxy hyz

theorem compare_eq_eq_iff {x y : ObjectId} : x.compare y = .eq ↔ x = y := by
  rw [compare_eq]
  obtain ⟨as, ha⟩ := x
  obtain ⟨bs, hb⟩ := y
  rw [ObjectId.mk.injEq]
  exact Std.LawfulEqOrd.compare_eq_iff_eq

end ObjectId

namespace Value

/-! ## What is compared -/

inductive Compared (a b : Value) : Ordering → Prop
  | identifiers {x y : ObjectId} (ha : ObjectId.ofValue? a = some x) (hb : ObjectId.ofValue? b = some y) :
      Compared a b (x.compare y)
  | texts {s t : String} (ha : a = str s) (hb : b = str t) : Compared a b (compare s t)
  | truths {s t : Bool} (ha : a = bool s) (hb : b = bool t) : Compared a b (compare s t)
  | numbers {x y : Float} {o : Ordering} (ha : a.number? = some x) (hb : b.number? = some y)
      (h : orderFloats? x y = some o) : Compared a b o

theorem order?_numbers {a b : Value} {x y : Float} (ha : a.number? = some x) (hb : b.number? = some y) :
    a.order? b = orderFloats? x y := by
  cases a with
  | int _ | float _ =>
    cases b with
    | int _ | float _ =>
      cases ha
      cases hb
      rfl
    | _ => cases hb
  | _ => cases ha

/-- **Values are compared as identifiers, texts, truth values or numbers**, and not at all otherwise. -/
theorem order?_eq_some_iff {a b : Value} {o : Ordering} : a.order? b = some o ↔ Compared a b o := by
  constructor
  · intro h
    unfold order? at h
    split at h
    · rename_i x y hx hy
      exact Option.some.inj h ▸ .identifiers hx hy
    · split at h
      · exact Option.some.inj h ▸ .texts rfl rfl
      · exact Option.some.inj h ▸ .truths rfl rfl
      · split at h
        · rename_i x y hx hy
          exact .numbers hx hy h
        · cases h
  · intro h
    cases h with
    | identifiers ha hb =>
      unfold order?
      rw [ha, hb]
    | texts ha hb =>
      rw [ha, hb]
      rfl
    | truths ha hb =>
      rw [ha, hb]
      rfl
    | numbers ha hb h => rw [order?_numbers ha hb, h]

theorem order?_str (s t : String) : (str s).order? (str t) = some (compare s t) :=
  order?_eq_some_iff.2 (.texts rfl rfl)

theorem order?_bool (s t : Bool) : (bool s).order? (bool t) = some (compare s t) :=
  order?_eq_some_iff.2 (.truths rfl rfl)

theorem kindRank_eq_of_order? {a b : Value} {o : Ordering} (h : a.order? b = some o) : a.kindRank = b.kindRank := by
  cases order?_eq_some_iff.1 h with
  | identifiers ha hb =>
    obtain ⟨s, rfl, -⟩ := ObjectId.eq_single_of_ofValue? ha
    obtain ⟨t, rfl, -⟩ := ObjectId.eq_single_of_ofValue? hb
    rfl
  | texts ha hb =>
    rw [ha, hb]
    rfl
  | truths ha hb =>
    rw [ha, hb]
    rfl
  | numbers ha hb h =>
    cases a with
    | int _ | float _ =>
      cases b with
      | int _ | float _ => rfl
      | _ => cases hb
    | _ => cases ha

/-! ## What is equal -/

/-- Two spellings of one identifier. -/
def Respelled (a b : Value) : Prop := a ≠ b ∧ ∃ id, ObjectId.ofValue? a = some id ∧ ObjectId.ofValue? b = some id

theorem not_respelled_left {a b : Value} (ha : ObjectId.ofValue? a = none) : ¬ Respelled a b := by
  rintro ⟨-, id, hid, -⟩
  rw [ha] at hid
  cases hid

theorem Respelled.order? {a b : Value} (h : Respelled a b) : a.order? b = some .eq := by
  obtain ⟨-, id, ha, hb⟩ := h
  rw [order?_eq_some_iff.2 (.identifiers ha hb), ObjectId.compare_eq_eq_iff.2 rfl]

theorem meets_numbers {a b : Value} {x y : Float} {o : Ordering} (ha : a.number? = some x) (hb : b.number? = some y)
    (h : orderFloats? x y = some o) : a.meets b = true ↔ o = .eq := by
  have hsame : (x == y) = true ↔ o = .eq := by
    rw [← orderFloats?_eq_iff, h, Option.some.injEq]
  have hmeets : a.meets b = (a.beq b || x == y) := by
    cases a with
    | int _ | float _ =>
      cases b with
      | int _ | float _ =>
        cases ha
        cases hb
        rfl
      | _ => cases hb
    | _ => cases ha
  -- what is equal as it stands is one number, which is compared to itself
  have hbeq : a.beq b = true → o = .eq := by
    intro hbeq
    cases a with
    | int m =>
      cases beq_int_iff.1 hbeq
      cases Option.some.inj (ha.symm.trans hb)
      exact orderFloats?_self h
    | float z =>
      obtain ⟨w, rfl, hzw⟩ := beq_float_iff.1 hbeq
      cases ha
      cases hb
      exact hsame.1 hzw
    | _ => cases ha
  rw [hmeets, Bool.or_eq_true, hsame]
  exact ⟨fun hor => hor.elim hbeq id, .inr⟩

/-- **Compared values are equal just if they are on one place**, unless they spell one identifier in two ways. -/
theorem meets_iff_of_order? {a b : Value} {o : Ordering} (h : a.order? b = some o) :
    a.meets b = true ↔ o = .eq ∧ ¬ Respelled a b := by
  cases order?_eq_some_iff.1 h with
  | @identifiers x y ha hb =>
    obtain ⟨s, rfl, hs⟩ := ObjectId.eq_single_of_ofValue? ha
    have hmeets : (obj [(ObjectId.fieldKey, str s)]).meets b = true ↔ obj [(ObjectId.fieldKey, str s)] = b := by
      rw [← beq_single_str_iff]
      simp [meets, number?]
    rw [hmeets, ObjectId.compare_eq_eq_iff]
    constructor
    · rintro rfl
      exact ⟨Option.some.inj (ha.symm.trans hb), fun hr => hr.1 rfl⟩
    · rintro ⟨rfl, hr⟩
      exact not_not.1 fun hne => hr ⟨hne, x, ha, hb⟩
  | @texts s t ha hb =>
    subst ha hb
    rw [and_iff_left (not_respelled_left rfl), Std.LawfulEqOrd.compare_eq_iff_eq]
    simp [meets, beq, number?]
  | @truths s t ha hb =>
    subst ha hb
    rw [and_iff_left (not_respelled_left rfl), Std.LawfulEqOrd.compare_eq_iff_eq]
    simp [meets, beq, number?]
  | @numbers x y o ha hb hxy =>
    have hno : ObjectId.ofValue? a = none := by
      cases a with
      | int _ | float _ => rfl
      | _ => cases ha
    rw [meets_numbers ha hb hxy, and_iff_left (not_respelled_left hno)]

theorem ordered_of_order? {a b : Value} {o : Ordering} (h : a.order? b = some o) (accept : Ordering → Bool) :
    ordered accept (some a) b = accept o := by
  cases a with
  | arr xs =>
    have harr : (arr xs).order? b = none := by
      cases b <;> rfl
    rw [harr] at h
    cases h
  | _ =>
    unfold ordered
    simp only
    rw [h]
    rfl

end Value

open Value (Respelled)

/-- **Equality and order agree just on what is not spelled in two ways.**  For values that are compared, being on one
place is being equal, exactly one of before, equal and behind holds, and being neither before nor behind is being
equal, as long as they are not two spellings of one identifier; two spellings are on one place and not equal, and
none of the three holds. -/
theorem order_and_equality_agree_iff {a b : Value} {o : Ordering} (h : a.order? b = some o) :
    ((o = .eq ↔ a.meets b = true) ↔ ¬ Respelled a b) ∧
    ([Test.lt b, .eq b, .gt b].countP (·.holds (some a)) = 1 ↔ ¬ Respelled a b) ∧
    (((Test.gte b).holds (some a) && (Test.lte b).holds (some a)) = (Test.eq b).holds (some a) ↔ ¬ Respelled a b) ∧
    (Respelled a b → o = .eq ∧ [Test.lt b, .eq b, .gt b].countP (·.holds (some a)) = 0) := by
  have hmeets := Value.meets_iff_of_order? h
  have heq : (Test.eq b).holds (some a) = a.meets b := by rw [Test.holds, Value.meetsMissing]
  have hlt : (Test.lt b).holds (some a) = (o == .lt) := by rw [Test.holds, Value.ordered_of_order? h]
  have hgt : (Test.gt b).holds (some a) = (o == .gt) := by rw [Test.holds, Value.ordered_of_order? h]
  have hlte : (Test.lte b).holds (some a) = (o != .gt) := by rw [Test.holds, Value.ordered_of_order? h]
  have hgte : (Test.gte b).holds (some a) = (o != .lt) := by rw [Test.holds, Value.ordered_of_order? h]
  simp only [List.countP_cons, List.countP_nil, heq, hlt, hgt, hlte, hgte]
  by_cases hr : Respelled a b
  · obtain rfl := Option.some.inj (h.symm.trans hr.order?)
    have hfalse : a.meets b = false := by
      rw [← Bool.not_eq_true, hmeets]
      exact fun hm => hm.2 hr
    simp [hr, hfalse]
  · rw [and_iff_left hr] at hmeets
    simp only [hr, not_false_eq_true, iff_true, false_implies, and_true]
    refine ⟨hmeets.symm, ?_⟩
    cases o <;> cases hm : a.meets b <;> simp_all

theorem order_and_equality_agree_iff_one : (Value.int 1).order? (.float 1) = some .eq ∧
    ¬ Respelled (.int 1) (.float 1) ∧ (Value.int 1).meets (.float 1) = true ∧
    [Test.lt (.float 1), .eq (.float 1), .gt (.float 1)].countP (·.holds (some (.int 1))) = 1 := by
  have horder : (Value.int 1).order? (.float 1) = some .eq := rfl
  have hone : ¬ Respelled (.int 1) (.float 1) := Value.not_respelled_left rfl
  obtain ⟨hagree, hcount, -, -⟩ := order_and_equality_agree_iff horder
  exact ⟨horder, hone, (hagree.2 hone).1 rfl, hcount.2 hone⟩

def lowerCase : Value := .obj [("$oid", .str "abcdef000000000000000001")]

def upperCase : Value := .obj [("$oid", .str "ABCDEF000000000000000001")]

/-- **Two spellings of an identifier are on one place, and neither before, equal nor behind.** -/
theorem spellings_neither_ordered_nor_equal : lowerCase.order? upperCase = some .eq ∧
    lowerCase.meets upperCase = false ∧
    (Test.lt upperCase).holds (some lowerCase) = false ∧ (Test.eq upperCase).holds (some lowerCase) = false ∧
    (Test.gt upperCase).holds (some lowerCase) = false ∧
    (Test.gte upperCase).holds (some lowerCase) = true ∧ (Test.lte upperCase).holds (some lowerCase) = true :=
  ⟨rfl, rfl, rfl, rfl, rfl, rfl, rfl⟩

end DocQuery
