import DocQuery.Proofs.Keyed
import DocQuery.Value
import Mathlib.Data.List.Perm.Subperm

/-!
# Equality of values

A value is well-formed if its objects hold every key once and its floats are numbers.  On well-formed values equality
is an equivalence; it is not the identity, since keys may stand in any order and zero has two signs.
-/
namespace DocQuery

namespace Value

/-! ## Floats -/

section

open Float.Model UnpackedFloat

theorem compare_infinity_iff {s t : Sign} :
    UnpackedFloat.compare (.infinity s) (.infinity t) = some .eq ↔ s = t := by
  change some (compare s t) = some .eq ↔ s = t
  cases s <;> cases t <;> simp [compare]

theorem compare_finite_iff {s t : Sign} {m m' : Nat} {e e' : Int} {h : 0 < m} {h' : 0 < m'} :
    UnpackedFloat.compare (.finite s m e h) (.finite t m' e' h') = some .eq ↔
      UnpackedFloat.finite s m e h = .finite t m' e' h' := by
  rw [UnpackedFloat.finite.injEq]
  cases s with
  | negative =>
    cases t with
    | negative =>
      change some ((compare e e').then (compare m m')).swap = some .eq ↔ _
      simp [Ordering.then_eq_eq, Ordering.swap_eq_eq, and_comm]
    | positive =>
      change some Ordering.lt = some .eq ↔ _
      simp
  | positive =>
    cases t with
    | negative =>
      change some Ordering.gt = some .eq ↔ _
      simp
    | positive =>
      change some ((compare e e').then (compare m m')) = some .eq ↔ _
      simp [Ordering.then_eq_eq, and_comm]

theorem unpacked_beq_iff {a b : UnpackedFloat} : a.beq b = true ↔
    (a = b ∧ a ≠ .notANumber) ∨ ∃ s t, a = .zero s ∧ b = .zero t := by
  unfold UnpackedFloat.beq
  rw [beq_iff_eq]
  have hnumber : a ≠ .notANumber → (∀ s t, a = .zero s → b ≠ .zero t) →
      (((a = b ∧ a ≠ .notANumber) ∨ ∃ s t, a = .zero s ∧ b = .zero t) ↔ a = b) := by
    intro ha hzero
    constructor
    · rintro (⟨h, -⟩ | ⟨s, t, hs, ht⟩)
      · exact h
      · exact absurd ht (hzero s t hs)
    · exact fun h => .inl ⟨h, ha⟩
  cases a with
  | notANumber =>
    refine iff_of_false (by cases b <;> rintro ⟨⟩) ?_
    rintro (⟨-, h⟩ | ⟨_, _, ⟨⟩, -⟩)
    exact h rfl
  | zero s =>
    cases b with
    | zero t => exact iff_of_true rfl (.inr ⟨s, t, rfl, rfl⟩)
    | infinity t =>
      rw [hnumber (by rintro ⟨⟩) (by rintro _ _ - ⟨⟩)]
      exact iff_of_false (by cases t <;> rintro ⟨⟩) (by rintro ⟨⟩)
    | finite t m e h =>
      rw [hnumber (by rintro ⟨⟩) (by rintro _ _ - ⟨⟩)]
      exact iff_of_false (by cases t <;> rintro ⟨⟩) (by rintro ⟨⟩)
    | notANumber =>
      rw [hnumber (by rintro ⟨⟩) (by rintro _ _ - ⟨⟩)]
      exact iff_of_false (by rintro ⟨⟩) (by rintro ⟨⟩)
  | infinity s =>
    rw [hnumber (by rintro ⟨⟩) (by rintro _ _ ⟨⟩)]
    cases b with
    | infinity t => rw [compare_infinity_iff, UnpackedFloat.infinity.injEq]
    | zero t => exact iff_of_false (by cases s <;> rintro ⟨⟩) (by rintro ⟨⟩)
    | finite t m e h => exact iff_of_false (by cases s <;> rintro ⟨⟩) (by rintro ⟨⟩)
    | notANumber => exact iff_of_false (by rintro ⟨⟩) (by rintro ⟨⟩)
  | finite s m e h =>
    rw [hnumber (by rintro ⟨⟩) (by rintro _ _ ⟨⟩)]
    cases b with
    | infinity t => exact iff_of_false (by cases s <;> cases t <;> rintro ⟨⟩) (by rintro ⟨⟩)
    | zero t => exact iff_of_false (by cases s <;> rintro ⟨⟩) (by rintro ⟨⟩)
    | finite t m' e' h' => exact compare_finite_iff
    | notANumber => exact iff_of_false (by rintro ⟨⟩) (by rintro ⟨⟩)

def unpacked (x : Float) : UnpackedFloat := unpack Format.binary64 x.toModel.toBits.toBitVec

theorem float_beq_iff {x y : Float} : (x == y) = true ↔
    (unpacked x = unpacked y ∧ unpacked x ≠ .notANumber) ∨ ∃ s t, unpacked x = .zero s ∧ unpacked y = .zero t :=
  unpacked_beq_iff

theorem float_beq_self {x : Float} (h : x.isFinite = true) : (x == x) = true := by
  have hfinite : (unpacked x).isFinite = true := h
  refine float_beq_iff.2 (.inl ⟨rfl, fun hnan => ?_⟩)
  rw [hnan] at hfinite
  cases hfinite

theorem float_beq_symm {x y : Float} (h : (x == y) = true) : (y == x) = true := by
  rcases float_beq_iff.1 h with ⟨heq, hne⟩ | ⟨s, t, hx, hy⟩
  · exact float_beq_iff.2 (.inl ⟨heq.symm, heq ▸ hne⟩)
  · exact float_beq_iff.2 (.inr ⟨t, s, hy, hx⟩)

theorem float_beq_trans {x y z : Float} (h : (x == y) = true) (h' : (y == z) = true) : (x == z) = true := by
  rcases float_beq_iff.1 h with ⟨heq, hne⟩ | ⟨s, t, hx, hy⟩
  · rw [float_beq_iff] at h' ⊢
    rwa [heq]
  · rcases float_beq_iff.1 h' with ⟨heq, -⟩ | ⟨s', t', -, hz⟩
    · exact float_beq_iff.2 (.inr ⟨s, t, hx, heq ▸ hy⟩)
    · exact float_beq_iff.2 (.inr ⟨s, t', hx, hz⟩)

end

/-! ## Well-formed values -/

/-- Objects hold every key once, and floats are numbers. -/
inductive WellFormed : Value → Prop
  | null : WellFormed null
  | bool (b : Bool) : WellFormed (bool b)
  | int (n : Int) : WellFormed (int n)
  | float {x : Float} (finite : x.isFinite = true) : WellFormed (float x)
  | str (s : String) : WellFormed (str s)
  | arr {xs : List Value} (items : ∀ v ∈ xs, WellFormed v) : WellFormed (arr xs)
  | obj {fs : Fields} (keys : (Keyed.keys fs).Nodup) (fields : ∀ e ∈ fs, WellFormed e.2) : WellFormed (obj fs)

/-! ## What is equal to a value -/

section

attribute [local simp] beq beqItems beqFields

theorem beq_null_iff {b : Value} : null.beq b = true ↔ null = b := by cases b <;> simp

theorem beq_bool_iff {x : Bool} {b : Value} : (bool x).beq b = true ↔ bool x = b := by
  cases b <;> simp

theorem beq_int_iff {n : Int} {b : Value} : (int n).beq b = true ↔ int n = b := by
  cases b <;> simp

theorem beq_float_iff {x : Float} {b : Value} : (float x).beq b = true ↔ ∃ y, b = float y ∧ (x == y) = true := by
  cases b <;> simp

theorem beq_str_iff {s : String} {b : Value} : (str s).beq b = true ↔ str s = b := by
  cases b <;> simp

theorem beqItems_iff : ∀ {xs ys : List Value}, beqItems xs ys = true ↔
    xs.length = ys.length ∧ ∀ (i : Nat) (x y : Value), xs[i]? = some x → ys[i]? = some y → x.beq y = true
  | [], [] => by simp
  | [], y :: ys => by simp
  | x :: xs, [] => by simp
  | x :: xs, y :: ys => by
    rw [beqItems, Bool.and_eq_true, beqItems_iff, List.length_cons, List.length_cons, Nat.add_right_cancel_iff]
    constructor
    · rintro ⟨hfirst, hlength, hrest⟩
      refine ⟨hlength, fun i x' y' hx hy => ?_⟩
      cases i with
      | zero =>
        cases hx
        cases hy
        exact hfirst
      | succ i => exact hrest i x' y' hx hy
    · rintro ⟨hlength, hall⟩
      exact ⟨hall 0 x y rfl rfl, hlength, fun i x' y' hx hy => hall (i + 1) x' y' hx hy⟩

theorem beq_arr_iff {xs : List Value} {b : Value} : (arr xs).beq b = true ↔ ∃ ys, b = arr ys ∧
    xs.length = ys.length ∧ ∀ (i : Nat) (x y : Value), xs[i]? = some x → ys[i]? = some y → x.beq y = true := by
  cases b <;> simp [beqItems_iff]

theorem beqFields_iff : ∀ {fs other : Fields}, beqFields fs other = true ↔
    ∀ e ∈ fs, ∃ w, Keyed.get? other e.1 = some w ∧ e.2.beq w = true
  | [], other => by simp
  | (k, v) :: fs, other => by
    rw [beqFields, Bool.and_eq_true, beqFields_iff, List.forall_mem_cons]
    refine and_congr_left fun _ => ?_
    cases Keyed.get? other k with
    | none => simp
    | some w => simp

theorem beq_obj_iff {fs : Fields} {b : Value} : (obj fs).beq b = true ↔ ∃ gs : Fields, b = obj gs ∧
    fs.length = gs.length ∧ ∀ e ∈ fs, ∃ w, Keyed.get? gs e.1 = some w ∧ e.2.beq w = true := by
  cases b <;> simp [beqFields_iff]

end

theorem keys_perm {fs gs : Fields} (hk : (Keyed.keys fs).Nodup) (hlength : fs.length = gs.length)
    (hfields : ∀ e ∈ fs, ∃ w, Keyed.get? gs e.1 = some w ∧ e.2.beq w = true) :
    (Keyed.keys fs).Perm (Keyed.keys gs) := by
  have hsub : Keyed.keys fs ⊆ Keyed.keys gs := fun k hk => by
    obtain ⟨e, he, rfl⟩ := List.mem_map.1 hk
    obtain ⟨w, hw, -⟩ := hfields e he
    exact List.mem_map.2 ⟨_, Keyed.mem_of_get? hw, rfl⟩
  exact (List.subperm_of_subset hk hsub).perm_of_length_le (by simp [Keyed.keys, hlength])

/-- **Objects are equal just if all their fields are**, missing ones included. -/
theorem beq_obj_iff_get? {fs gs : Fields} (hf : (Keyed.keys fs).Nodup) (hg : (Keyed.keys gs).Nodup) :
    (obj fs).beq (obj gs) = true ↔ ∀ key, (Keyed.get? fs key == Keyed.get? gs key) = true := by
  constructor
  · intro h key
    obtain ⟨gs', hgs, hlength, hfields⟩ := beq_obj_iff.1 h
    obtain rfl : gs = gs' := Value.obj.inj hgs
    cases hget : Keyed.get? fs key with
    | some v =>
      obtain ⟨w, hw, heq⟩ := hfields _ (Keyed.mem_of_get? hget)
      rw [hw]
      exact heq
    | none =>
      have hperm := keys_perm hf hlength hfields
      have hnone : Keyed.get? gs key = none := Keyed.get?_eq_none.2 fun e he heq => by
        obtain ⟨e', he', hkey⟩ := List.mem_map.1 (hperm.mem_iff.2 (List.mem_map.2 ⟨e, he, rfl⟩))
        exact Keyed.get?_eq_none.1 hget e' he' (hkey.trans heq)
      rw [hnone]
      rfl
  · intro h
    have hfields : ∀ e ∈ fs, ∃ w, Keyed.get? gs e.1 = some w ∧ e.2.beq w = true := fun e he => by
      have hkey := h e.1
      rw [(Keyed.mem_iff_get? hf).1 he] at hkey
      cases hget : Keyed.get? gs e.1 with
      | none =>
        rw [hget] at hkey
        cases hkey
      | some w =>
        rw [hget] at hkey
        exact ⟨w, rfl, hkey⟩
    have hmem : ∀ k, k ∈ Keyed.keys fs ↔ k ∈ Keyed.keys gs := fun k => by
      have hkey := h k
      rw [Keyed.mem_keys, Keyed.mem_keys]
      cases hget : Keyed.get? fs k <;> cases hget' : Keyed.get? gs k <;> simp_all
    have hperm : (Keyed.keys fs).Perm (Keyed.keys gs) := (List.perm_ext_iff_of_nodup hf hg).2 hmem
    have hlength : fs.length = gs.length := by simpa [Keyed.keys] using hperm.length_eq
    exact beq_obj_iff.2 ⟨gs, rfl, hlength, hfields⟩

theorem beq_single_str_iff {key s : String} {w : Value} :
    (obj [(key, str s)]).beq w = true ↔ obj [(key, str s)] = w := by
  constructor
  · intro h
    obtain ⟨gs, rfl, hlength, hfields⟩ := beq_obj_iff.1 h
    obtain ⟨⟨key', x⟩, rfl⟩ := List.length_eq_one_iff.1 hlength.symm
    obtain ⟨w, hw, heq⟩ := hfields _ List.mem_cons_self
    obtain ⟨hkey, hx⟩ := Prod.mk.inj (List.mem_singleton.1 (Keyed.mem_of_get? hw))
    rw [← hkey, ← hx, beq_str_iff.1 heq]
  · rintro rfl
    simp [beq, beqFields, Keyed.get?]

/-! ## Equality is an equivalence -/

theorem beq_self {v : Value} (hv : v.WellFormed) : v.beq v = true := by
  induction hv with
  | null => rfl
  | bool b => exact beq_self_eq_true b
  | int n => exact beq_self_eq_true n
  | float hx => exact float_beq_self hx
  | str s => exact beq_self_eq_true s
  | arr _ ih =>
    refine beq_arr_iff.2 ⟨_, rfl, rfl, fun i x y hx hy => ?_⟩
    obtain rfl := Option.some.inj (hx.symm.trans hy)
    exact ih x (List.mem_of_getElem? hx)
  | obj hk _ ih => exact beq_obj_iff.2 ⟨_, rfl, rfl, fun e he => ⟨e.2, (Keyed.mem_iff_get? hk).1 he, ih e he⟩⟩

theorem beq_of_perm {fs gs : Fields} (hf : (obj fs).WellFormed) (h : gs.Perm fs) : (obj gs).beq (obj fs) = true := by
  cases hf with
  | obj hk hfields =>
    exact beq_obj_iff.2 ⟨fs, rfl, h.length_eq, fun e he =>
      ⟨e.2, (Keyed.mem_iff_get? hk).1 (h.mem_iff.1 he), beq_self (hfields e (h.mem_iff.1 he))⟩⟩

theorem beq_symm {a b : Value} (ha : a.WellFormed) (hb : b.WellFormed) (h : a.beq b = true) : b.beq a = true := by
  induction ha generalizing b with
  | null => exact beq_null_iff.1 h ▸ rfl
  | bool x => exact beq_bool_iff.1 h ▸ beq_self_eq_true x
  | int n => exact beq_int_iff.1 h ▸ beq_self_eq_true n
  | float _ =>
    obtain ⟨y, rfl, hy⟩ := beq_float_iff.1 h
    exact float_beq_symm hy
  | str s => exact beq_str_iff.1 h ▸ beq_self_eq_true s
  | arr _ ih =>
    obtain ⟨ys, rfl, hlength, hitems⟩ := beq_arr_iff.1 h
    cases hb with
    | arr hys =>
      refine beq_arr_iff.2 ⟨_, rfl, hlength.symm, fun i y x hy hx => ?_⟩
      exact ih x (List.mem_of_getElem? hx) (hys y (List.mem_of_getElem? hy)) (hitems i x y hx hy)
  | @obj fs hk _ ih =>
    obtain ⟨gs, rfl, hlength, hfields⟩ := beq_obj_iff.1 h
    cases hb with
    | obj hk' hgs =>
      have hperm := keys_perm hk hlength hfields
      refine beq_obj_iff.2 ⟨fs, rfl, hlength.symm, fun e he => ?_⟩
      obtain ⟨e', he', hkey⟩ := List.mem_map.1 (hperm.mem_iff.2 (List.mem_map.2 ⟨e, he, rfl⟩))
      obtain ⟨w, hw, heq⟩ := hfields e' he'
      rw [hkey] at hw
      obtain rfl := Option.some.inj (hw.symm.trans ((Keyed.mem_iff_get? hk').1 he))
      refine ⟨e'.2, (Keyed.mem_iff_get? hk).1 (hkey ▸ he'), ih e' he' (hgs e he) heq⟩

theorem beq_trans {a b c : Value} (ha : a.WellFormed) (h : a.beq b = true) (h' : b.beq c = true) :
    a.beq c = true := by
  induction ha generalizing b c with
  | null => rwa [← beq_null_iff.1 h] at h'
  | bool x => rwa [← beq_bool_iff.1 h] at h'
  | int n => rwa [← beq_int_iff.1 h] at h'
  | float _ =>
    obtain ⟨y, rfl, hy⟩ := beq_float_iff.1 h
    obtain ⟨z, rfl, hz⟩ := beq_float_iff.1 h'
    exact float_beq_trans hy hz
  | str s => rwa [← beq_str_iff.1 h] at h'
  | arr _ ih =>
    obtain ⟨ys, rfl, hlength, hitems⟩ := beq_arr_iff.1 h
    obtain ⟨zs, rfl, hlength', hitems'⟩ := beq_arr_iff.1 h'
    refine beq_arr_iff.2 ⟨zs, rfl, hlength.trans hlength', fun i x z hx hz => ?_⟩
    have hi : i < ys.length := by
      rw [← hlength]
      exact (List.getElem?_eq_some_iff.1 hx).1
    have hy := List.getElem?_eq_getElem hi
    exact ih x (List.mem_of_getElem? hx) (hitems i x _ hx hy) (hitems' i _ z hy hz)
  | obj _ _ ih =>
    obtain ⟨gs, rfl, hlength, hfields⟩ := beq_obj_iff.1 h
    obtain ⟨hs, rfl, hlength', hfields'⟩ := beq_obj_iff.1 h'
    refine beq_obj_iff.2 ⟨hs, rfl, hlength.trans hlength', fun e he => ?_⟩
    obtain ⟨w, hw, heq⟩ := hfields e he
    obtain ⟨u, hu, heq'⟩ := hfields' _ (Keyed.mem_of_get? hw)
    exact ⟨u, hu, ih e he heq heq'⟩

end Value

end DocQuery
