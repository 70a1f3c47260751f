import DocQuery.Proofs.Run
import DocQuery.Request
import Mathlib.Algebra.Group.Nat.Defs

/-!
# Windows in text

The text of a window has one or two parts with a comma between them; each is a number in base ten below `2^64`, with a
plus sign or none, and blanks around it (`Request.IsWindow`).  Just such texts are read, a length without an offset
being one from the start, and all others are faults that leave the request as it is (`Request.limit_text_grammar`).
-/
namespace DocQuery

namespace Request

open Text (Blanks Numeral)

inductive IsBound : List Char → Nat → Prop
  | mk {l t r : List Char} {n : Nat} (hl : Blanks l) (ht : Numeral t n) (hr : Blanks r) (hn : n < 2 ^ 64) :
      IsBound (l ++ t ++ r) n

/-- The texts of a window: a length, or an offset and a length with a comma between them. -/
inductive IsWindow : List Char → Nat × Nat → Prop
  | length {p : List Char} {n : Nat} (h : IsBound p n) : IsWindow p (0, n)
  | both {p q : List Char} {m n : Nat} (hp : IsBound p m) (hq : IsBound q n) : IsWindow (p ++ ',' :: q) (m, n)

/-- **A number with blanks around it is what is read when they are trimmed.** -/
theorem isBound_iff {part : List Char} {n : Nat} :
    IsBound part n ↔ Text.unsigned64? (Text.trim (String.ofList part)) = some n := by
  rw [Text.unsigned64?, Text.unsignedBelow?_eq_some_iff, Text.trim, String.toList_ofList, String.toList_ofList]
  constructor
  · rintro ⟨hl, ht, hr, hn⟩
    rw [Text.trimList_append hl hr (fun c hc => ht.not_blank hc) ht.ne_nil]
    exact ⟨ht, hn⟩
  · rintro ⟨ht, hn⟩
    obtain ⟨l, r, hpart, hl, hr⟩ := Text.exists_trimList part
    rw [hpart]
    exact .mk hl ht hr hn

theorem IsBound.undivided {part : List Char} {n : Nat} (h : IsBound part n) : ',' ∉ part := by
  obtain ⟨hl, ht, hr, -⟩ := h
  intro hmem
  rcases List.mem_append.1 hmem with hmem | hmem
  · rcases List.mem_append.1 hmem with hmem | hmem
    · cases hl ',' hmem
    · rcases ht.mem hmem with hc | hc <;> cases hc
  · cases hr ',' hmem

theorem isWindow_iff {cs : List Char} {m n : Nat} : IsWindow cs (m, n) ↔ match cs.splitOn ',' with
    | [p] => m = 0 ∧ IsBound p n
    | [p, q] => IsBound p m ∧ IsBound q n
    | _ => False := by
  constructor
  · intro h
    cases h with
    | length h =>
      rw [List.splitOn_eq_singleton h.undivided]
      exact ⟨rfl, h⟩
    | both hp hq =>
      rw [List.splitOn_append_cons_self_of_not_mem hp.undivided, List.splitOn_eq_singleton hq.undivided]
      exact ⟨hp, hq⟩
  · have hjoin : [','].intercalate (cs.splitOn ',') = cs := List.intercalate_splitOn ','
    generalize cs.splitOn ',' = parts at hjoin ⊢
    rcases parts with _ | ⟨p, _ | ⟨q, _ | ⟨x, xs⟩⟩⟩
    · rintro ⟨⟩
    · rintro ⟨rfl, h⟩
      rw [List.intercalate_singleton] at hjoin
      exact hjoin ▸ .length h
    · rintro ⟨hp, hq⟩
      rw [List.intercalate_cons_cons, List.intercalate_singleton, List.append_assoc] at hjoin
      exact hjoin ▸ .both hp hq
    · rintro ⟨⟩

/-- **Just the texts of windows are read.** -/
theorem parseLimit_eq_ok_iff {s : String} {w : Nat × Nat} : parseLimit s = .ok w ↔ IsWindow s.toList w := by
  obtain ⟨m, n⟩ := w
  rw [isWindow_iff, parseLimit, Text.cut, List.map_map]
  rcases s.toList.splitOn ',' with _ | ⟨p, _ | ⟨q, _ | ⟨x, xs⟩⟩⟩
  · simp
  · simp only [isBound_iff, List.map_cons, List.map_nil, Function.comp_apply]
    cases Text.unsigned64? (Text.trim (String.ofList p)) <;> simp [eq_comm]
  · simp only [isBound_iff, List.map_cons, List.map_nil, Function.comp_apply]
    cases Text.unsigned64? (Text.trim (String.ofList p)) <;>
      cases Text.unsigned64? (Text.trim (String.ofList q)) <;> simp
  · simp

theorem parseLimit_error {s : String} {e : Fault} (h : parseLimit s = .error e) : e = .query (.limitText s) := by
  unfold parseLimit at h
  split at h
  · split at h
    · cases h
    · exact (Except.error.inj h).symm
  · split at h
    · cases h
    · exact (Except.error.inj h).symm
  · exact (Except.error.inj h).symm

theorem limiting_on (s : String) (r : Request) : (limiting s).on r = match r.setLimitText s with
    | .ok r' => (.ok (), r')
    | .error e => (.error e, r) := by
  rw [limiting, Run.on_bind, Run.on_lift, setLimitText]
  cases parseLimit s <;> rfl

theorem setLimit_eq_iff {r : Request} {w w' : Nat × Nat} :
    r.setLimit w.1 w.2 = { r with skip := w'.1, limit := w'.2 } ↔ w = w' := by
  simp [setLimit, Prod.ext_iff]

/-- **The texts of windows are those with one or two numbers, and nothing else is read.**  A text that is none is a
fault of the query.  What is read becomes the window of a request, which otherwise stays as it is. -/
theorem limit_text_grammar (s : String) :
    (∀ w, parseLimit s = .ok w ↔ IsWindow s.toList w) ∧
    (parseLimit s = .error (.query (.limitText s)) ↔ ∀ w, ¬ IsWindow s.toList w) ∧
    ∀ r : Request,
      (∀ w, (limiting s).on r = (.ok (), { r with skip := w.1, limit := w.2 }) ↔ IsWindow s.toList w) ∧
      ((limiting s).on r = (.error (.query (.limitText s)), r) ↔ ∀ w, ¬ IsWindow s.toList w) ∧
      (r.setLimitText s = .error (.query (.limitText s)) ↔ ∀ w, ¬ IsWindow s.toList w) := by
  have hfault : parseLimit s = .error (.query (.limitText s)) ↔ ∀ w, ¬ IsWindow s.toList w := by
    simp only [← parseLimit_eq_ok_iff]
    cases h : parseLimit s with
    | ok w => simp
    | error e => simp [parseLimit_error h]
  refine ⟨fun _ => parseLimit_eq_ok_iff, hfault, fun r => ?_⟩
  rw [← hfault, limiting_on, setLimitText]
  simp only [← parseLimit_eq_ok_iff]
  cases h : parseLimit s with
  | ok w =>
    refine ⟨fun w' => ?_, by simp [Except.map], by simp [Except.map]⟩
    simp only [Except.map, Prod.mk.injEq, true_and, Except.ok.injEq]
    exact setLimit_eq_iff
  | error e => simp [Except.map]

end Request

end DocQuery
