import DocQuery.Proofs.FloatText
import DocQuery.Value.Text

/-!
# What the text of a value tells

Reading from the left, the compact text of a value can be told from whatever follows it: quotes end texts, brackets end
arrays and objects, and numbers go as far as their characters (`Value.text_append`).  So values with one text are one
value (`Value.text_injective`).
-/
namespace DocQuery

namespace Text

/-! ## Quoted texts -/

def hexValue (c : Char) : Nat := if c.isDigit then c.toNat - 48 else c.toNat - 87

/-- The character at the start of a quoted text, and what is behind it. -/
def unescape : List Char → Option (Char × List Char)
  | '\\' :: 'b' :: r => some ('\x08', r)
  | '\\' :: 'f' :: r => some ('\x0c', r)
  | '\\' :: 'n' :: r => some ('\n', r)
  | '\\' :: 'r' :: r => some ('\r', r)
  | '\\' :: 't' :: r => some ('\t', r)
  | '\\' :: 'u' :: '0' :: '0' :: a :: b :: r => some (Char.ofNat (16 * hexValue a + hexValue b), r)
  | '\\' :: c :: r => some (c, r)
  | c :: r => some (c, r)
  | [] => none

theorem unescape_of_ne {c : Char} (h : c ≠ '\\') (r : List Char) : unescape (c :: r) = some (c, r) := by
  unfold unescape
  split
  all_goals simp_all

theorem hexValue_hexDigit : ∀ n < 16, hexValue (hexDigit n) = n := by decide

/-- **An escaped character can be read back.** -/
theorem unescape_escapeChar (c : Char) (r : List Char) : unescape (escapeChar c ++ r) = some (c, r) := by
  unfold escapeChar
  split
  · rename_i h; rw [h]; rfl
  split
  · rename_i h; rw [h]; rfl
  split
  · rename_i h; rw [h]; rfl
  split
  · rename_i h; rw [h]; rfl
  split
  · rename_i h; rw [h]; rfl
  split
  · rename_i h; rw [h]; rfl
  split
  · rename_i h; rw [h]; rfl
  split
  · rename_i h
    have hhigh := hexValue_hexDigit (c.toNat / 16) (by omega)
    have hlow := hexValue_hexDigit (c.toNat % 16) (by omega)
    simp only [List.cons_append, List.nil_append, unescape, hhigh, hlow, Nat.div_add_mod, Char.ofNat_toNat]
  · rename_i h _ _ _ _ _ _
    exact unescape_of_ne h r

theorem escapeChar_ne_quote (c : Char) : ∃ d r, escapeChar c = d :: r ∧ d ≠ '"' := by
  unfold escapeChar
  repeat' split
  all_goals exact ⟨_, _, rfl, by first | decide | assumption⟩

theorem escaped_append : ∀ {s t x y : List Char},
    s.flatMap escapeChar ++ '"' :: x = t.flatMap escapeChar ++ '"' :: y → s = t ∧ x = y
  | [], [], _, _, h => ⟨rfl, (List.cons.inj h).2⟩
  | [], d :: t, x, y, h => by
    obtain ⟨e, r, he, hne⟩ := escapeChar_ne_quote d
    rw [List.flatMap_cons, he] at h
    exact absurd (List.cons.inj h).1.symm hne
  | c :: s, [], x, y, h => by
    obtain ⟨e, r, he, hne⟩ := escapeChar_ne_quote c
    rw [List.flatMap_cons, he] at h
    exact absurd (List.cons.inj h).1 hne
  | c :: s, d :: t, x, y, h => by
    rw [List.flatMap_cons, List.flatMap_cons, List.append_assoc, List.append_assoc] at h
    have hread := congrArg unescape h
    rw [unescape_escapeChar, unescape_escapeChar, Option.some.injEq, Prod.mk.injEq] at hread
    obtain ⟨hs, hx⟩ := escaped_append hread.2
    exact ⟨by rw [hread.1, hs], hx⟩

theorem toList_quote (s : String) : (quote s).toList = '"' :: (s.toList.flatMap escapeChar ++ ['"']) := by
  rw [quote, String.toList_ofList, List.cons_append]

/-- **Quotes tell where a text ends.** -/
theorem quote_append {s t : String} {x y : List Char} (h : (quote s).toList ++ x = (quote t).toList ++ y) :
    s = t ∧ x = y := by
  rw [toList_quote, toList_quote, List.cons_append, List.cons_append, List.append_assoc, List.append_assoc] at h
  obtain ⟨hs, hx⟩ := escaped_append (List.cons.inj h).2
  exact ⟨String.toList_inj.1 hs, hx⟩

/-! ## Numbers -/

def isNumeric (c : Char) : Bool := c.isDigit || c == '-' || c == '+' || c == '.' || c == 'e'

/-- What no number goes on with. -/
def Ends (l : List Char) : Prop := ∀ c ∈ l.head?, isNumeric c = false

/-- **Numbers go as far as their characters.** -/
theorem numeric_append : ∀ {s t x y : List Char}, (∀ c ∈ s, isNumeric c = true) → (∀ c ∈ t, isNumeric c = true) →
    Ends x → Ends y → s ++ x = t ++ y → s = t ∧ x = y
  | [], [], _, _, _, _, _, _, h => ⟨rfl, h⟩
  | [], d :: t, x, y, _, ht, hx, _, h => by
    have hd := hx d (by rw [show x = d :: (t ++ y) from h]; rfl)
    rw [ht d List.mem_cons_self] at hd
    cases hd
  | c :: s, [], x, y, hs, _, _, hy, h => by
    have hc := hy c (by rw [show y = c :: (s ++ x) from h.symm]; rfl)
    rw [hs c List.mem_cons_self] at hc
    cases hc
  | c :: s, d :: t, x, y, hs, ht, hx, hy, h => by
    obtain ⟨hcd, h⟩ := List.cons.inj h
    obtain ⟨hst, hxy⟩ := numeric_append (fun e he => hs e (List.mem_cons_of_mem _ he))
      (fun e he => ht e (List.mem_cons_of_mem _ he)) hx hy h
    exact ⟨by rw [hcd, hst], hxy⟩

theorem toList_int (n : Int) : (toString n).toList = (if 0 ≤ n then [] else ['-']) ++ (toString n.natAbs).toList := by
  have hnat : ∀ k : Nat, toString k = k.repr := fun _ => rfl
  rw [Int.toString_eq_repr, Int.repr_eq_if, hnat]
  split
  · rename_i h
    rw [show n.toNat = n.natAbs by omega, List.nil_append]
  · rename_i h
    rw [show (-n).toNat = n.natAbs by omega, String.toList_append]
    rfl

theorem mem_int {n : Int} {c : Char} (h : c ∈ (toString n).toList) : c.isDigit = true ∨ c = '-' := by
  rw [toList_int, List.mem_append] at h
  rcases h with h | h
  · split at h
    · cases h
    · exact .inr (List.mem_singleton.1 h)
  · exact .inl (isDigit_of_mem_toString h)

theorem toString_injective {m n : Nat} (h : (toString m).toList = (toString n).toList) : m = n := by
  rw [Nat.toString_eq_ofList_toDigits, Nat.toString_eq_ofList_toDigits, String.toList_ofList, String.toList_ofList] at h
  rw [← @Nat.ofDigitChars_toDigits 10 m (by decide) (by decide), h, Nat.ofDigitChars_toDigits (by decide) (by decide)]

theorem int_injective {m n : Int} (h : (toString m).toList = (toString n).toList) : m = n := by
  have hsign : ∀ {k : Nat} {l : List Char}, '-' :: l ≠ (toString k).toList := fun {k l} hl => by
    have hdigit : '-'.isDigit = true := isDigit_of_mem_toString (n := k) (by rw [← hl]; exact List.mem_cons_self)
    cases hdigit
  rw [toList_int, toList_int] at h
  by_cases hm : 0 ≤ m
  · by_cases hn : 0 ≤ n
    · rw [if_pos hm, if_pos hn] at h
      have habs := toString_injective h
      omega
    · rw [if_pos hm, if_neg hn] at h
      exact absurd h.symm hsign
  · by_cases hn : 0 ≤ n
    · rw [if_neg hm, if_pos hn] at h
      exact absurd h hsign
    · rw [if_neg hm, if_neg hn] at h
      have habs := toString_injective (List.cons.inj h).2
      omega

end Text

namespace Decimal

theorem mem_positional {digits : List Char} {leading : Int} {c : Char} (h : c ∈ positional digits leading) :
    c ∈ digits ∨ c = '0' ∨ c = '.' := by
  unfold positional zeros at h
  split at h
  · simp only [List.cons_append, List.mem_cons, List.mem_append, List.mem_replicate] at h
    rcases h with h | h | ⟨-, h⟩ | h
    · exact .inr (.inl h)
    · exact .inr (.inr h)
    · exact .inr (.inl h)
    · exact .inl h
  · simp only [List.append_assoc, List.mem_append, List.mem_cons, List.mem_replicate] at h
    rcases h with h | ⟨-, h⟩ | h | h
    · exact .inl (List.mem_of_mem_take h)
    · exact .inr (.inl h)
    · exact .inr (.inr h)
    · split at h
      · exact .inr (.inl (List.mem_singleton.1 h))
      · exact .inl (List.mem_of_mem_drop h)

theorem mem_exponential {digits : List Char} {leading : Int} {c : Char} (h : c ∈ exponential digits leading) :
    c ∈ digits ∨ c ∈ ['.', 'e', '-', '+'] ∨ c ∈ (toString leading.natAbs).toList := by
  unfold exponential at h
  simp only [List.append_assoc, List.mem_append, List.mem_cons] at h
  rcases h with h | h | h | h | h
  · exact .inl (List.mem_of_mem_take h)
  · split at h
    · cases h
    · rcases List.mem_cons.1 h with h | h
      · exact .inr (.inl (by simp [h]))
      · exact .inl (List.mem_of_mem_drop h)
  · exact .inr (.inl (by simp [h]))
  · refine .inr (.inl ?_)
    split at h
    · simp [h]
    · simp [h]
  · exact .inr (.inr h)

theorem numeric_of_mem_write {l : Layout} {d : Digits} {c : Char} (h : c ∈ (l.write d).toList) :
    Text.isNumeric c = true := by
  have hdigit : ∀ {n : Nat}, c ∈ (toString n).toList → Text.isNumeric c = true := fun hc => by
    simp [Text.isNumeric, Text.isDigit_of_mem_toString hc]
  unfold Layout.write at h
  simp only [String.toList_ofList] at h
  split at h
  · rcases mem_positional h with h | h | h
    · exact hdigit h
    · rw [h]; rfl
    · rw [h]; rfl
  · rcases mem_exponential h with h | h | h
    · exact hdigit h
    · simp only [List.mem_cons, List.not_mem_nil, or_false] at h
      rcases h with rfl | rfl | rfl | rfl <;> rfl
    · exact hdigit h

theorem point_mem_write (l : Layout) (d : Digits) : ∃ c ∈ (l.write d).toList, c = '.' ∨ c = 'e' := by
  unfold Layout.write
  simp only [String.toList_ofList]
  split
  · refine ⟨'.', ?_, .inl rfl⟩
    unfold positional
    split <;> simp
  · refine ⟨'e', ?_, .inr rfl⟩
    unfold exponential
    simp

theorem numeric_magnitudeText (l : Layout) (x : Float) : (∀ c ∈ magnitudeText l x, Text.isNumeric c = true) ∧
    ∃ c ∈ magnitudeText l x, c = '.' ∨ c = 'e' := by
  unfold magnitudeText
  cases ofFloat? x with
  | none => exact ⟨by simp [Text.isNumeric], '.', by simp, .inl rfl⟩
  | some d => exact ⟨fun c => numeric_of_mem_write, point_mem_write l d⟩

theorem numeric_writeFloat (l : Layout) (x : Float) : (∀ c ∈ (l.writeFloat x).toList, Text.isNumeric c = true) ∧
    ∃ c ∈ (l.writeFloat x).toList, c = '.' ∨ c = 'e' := by
  obtain ⟨hnumeric, c, hc, hpoint⟩ := numeric_magnitudeText l x
  rw [toList_writeFloat]
  refine ⟨fun d hd => ?_, c, List.mem_append_right _ hc, hpoint⟩
  rcases List.mem_append.1 hd with hd | hd
  · split at hd
    · rw [List.mem_singleton.1 hd]; rfl
    · cases hd
  · exact hnumeric d hd

end Decimal

namespace Value

open Text

def leadOf (c : Char) : Option Nat :=
  if c = 'n' then some 0
  else if c = 't' then some 1
  else if c = 'f' then some 2
  else if c = '"' then some 3
  else if c = '[' then some 4
  else if c = '\x7b' then some 5
  else if isNumeric c then some 6
  else none

def lead : Value → Nat
  | null => 0
  | bool true => 1
  | bool false => 2
  | str _ => 3
  | arr _ => 4
  | obj _ => 5
  | int _ => 6
  | float _ => 6

theorem leadOf_numeric {c : Char} (h : isNumeric c = true) : leadOf c = some 6 := by
  have hne : ∀ d, isNumeric d = false → c ≠ d := by
    rintro d hd rfl
    rw [h] at hd
    cases hd
  unfold leadOf
  rw [if_neg (hne _ rfl), if_neg (hne _ rfl), if_neg (hne _ rfl), if_neg (hne _ rfl), if_neg (hne _ rfl),
    if_neg (hne _ rfl), if_pos h]

theorem numeric_int (n : Int) : ∀ c ∈ (toString n).toList, isNumeric c = true := by
  intro c hc
  rcases mem_int hc with h | rfl
  · simp [isNumeric, h]
  · rfl

theorem lead_numeric {s : List Char} (hs : s ≠ []) (h : ∀ c ∈ s, isNumeric c = true) :
    ∃ c r, s = c :: r ∧ leadOf c = some 6 := by
  cases s with
  | nil => exact absurd rfl hs
  | cons c r => exact ⟨c, r, rfl, leadOf_numeric (h c List.mem_cons_self)⟩

theorem lead_text (v : Value) : ∃ c r, v.text.toList = c :: r ∧ leadOf c = some v.lead := by
  cases v with
  | null => exact ⟨'n', ['u', 'l', 'l'], rfl, rfl⟩
  | bool b =>
    cases b with
    | false => exact ⟨'f', ['a', 'l', 's', 'e'], rfl, rfl⟩
    | true => exact ⟨'t', ['r', 'u', 'e'], rfl, rfl⟩
  | int n =>
    have hne : (toString n).toList ≠ [] := by
      rw [toList_int]
      exact fun h => toString_ne_nil _ (List.append_eq_nil_iff.1 h).2
    exact lead_numeric hne (numeric_int n)
  | float x =>
    obtain ⟨hnumeric, c, hc, -⟩ := Decimal.numeric_writeFloat floatLayout x
    exact lead_numeric (List.ne_nil_of_mem hc) hnumeric
  | str s => exact ⟨'"', _, toList_quote s, rfl⟩
  | arr xs => exact ⟨'[', (textItems xs).toList ++ [']'], by simp [text], rfl⟩
  | obj fs => exact ⟨'\x7b', (textFields fs).toList ++ ['\x7d'], by simp [text], rfl⟩

theorem lead_eq {v w : Value} {x y : List Char} (h : v.text.toList ++ x = w.text.toList ++ y) : v.lead = w.lead := by
  obtain ⟨c, r, hc, hv⟩ := lead_text v
  obtain ⟨d, t, hd, hw⟩ := lead_text w
  rw [hc, hd] at h
  rw [(List.cons.inj h).1, hw] at hv
  exact (Option.some.inj hv).symm

theorem ends_cons {c : Char} (h : isNumeric c = false) (r : List Char) : Ends (c :: r) := by
  intro d hd
  cases hd
  exact h

theorem float_ne_int (x : Float) (n : Int) : (floatLayout.writeFloat x).toList ≠ (toString n).toList := by
  intro h
  obtain ⟨-, c, hc, hpoint⟩ := Decimal.numeric_writeFloat floatLayout x
  rw [h] at hc
  rcases mem_int hc with hdigit | rfl
  · rcases hpoint with rfl | rfl
    · cases hdigit
    · cases hdigit
  · rcases hpoint with hpoint | hpoint <;> cases hpoint

theorem number_append {v w : Value} (hv : v.lead = 6) (hw : w.lead = 6) {x y : List Char} (hx : Ends x) (hy : Ends y)
    (h : v.text.toList ++ x = w.text.toList ++ y) : v = w ∧ x = y := by
  have hnumeric : ∀ {u : Value}, u.lead = 6 → ∀ c ∈ u.text.toList, isNumeric c = true := by
    intro u hu
    cases u with
    | int n => exact numeric_int n
    | float z => exact (Decimal.numeric_writeFloat floatLayout z).1
    | bool b => cases b <;> cases hu
    | _ => cases hu
  obtain ⟨htext, hxy⟩ := numeric_append (hnumeric hv) (hnumeric hw) hx hy h
  refine ⟨?_, hxy⟩
  cases v with
  | int n =>
    cases w with
    | int m => rw [int_injective htext]
    | float z => exact absurd htext.symm (float_ne_int z n)
    | bool b => cases b <;> cases hw
    | _ => cases hw
  | float z =>
    cases w with
    | int m => exact absurd htext (float_ne_int z m)
    | float z' => rw [Decimal.writeFloat_injective floatLayout (String.toList_inj.1 htext)]
    | bool b => cases b <;> cases hw
    | _ => cases hw
  | bool b => cases b <;> cases hv
  | _ => cases hv

theorem text_arr_append (xs : List Value) (x : List Char) :
    (arr xs).text.toList ++ x = '[' :: ((textItems xs).toList ++ ']' :: x) := by simp [text]

theorem text_obj_append (fs : List (String × Value)) (x : List Char) :
    (obj fs).text.toList ++ x = '\x7b' :: ((textFields fs).toList ++ '\x7d' :: x) := by simp [text]

def itemsBehind (x : List Char) : List Value → List Char
  | [] => ']' :: x
  | b :: r => ',' :: ((textItems (b :: r)).toList ++ ']' :: x)

theorem textItems_cons (a : Value) (xs : List Value) (x : List Char) :
    (textItems (a :: xs)).toList ++ ']' :: x = a.text.toList ++ itemsBehind x xs := by
  cases xs with
  | nil => rw [textItems, itemsBehind]
  | cons b r => simp [textItems, itemsBehind]

theorem ends_itemsBehind (x : List Char) (xs : List Value) : Ends (itemsBehind x xs) := by
  cases xs with
  | nil => exact ends_cons rfl _
  | cons b r => exact ends_cons rfl _

def fieldsBehind (x : List Char) : List (String × Value) → List Char
  | [] => '\x7d' :: x
  | e :: r => ',' :: ((textFields (e :: r)).toList ++ '\x7d' :: x)

theorem textFields_cons (k : String) (v : Value) (fs : List (String × Value)) (x : List Char) :
    (textFields ((k, v) :: fs)).toList ++ '\x7d' :: x =
      (quote k).toList ++ ':' :: (v.text.toList ++ fieldsBehind x fs) := by
  cases fs with
  | nil => simp [textFields, fieldsBehind]
  | cons e r => simp [textFields, fieldsBehind]

theorem ends_fieldsBehind (x : List Char) (fs : List (String × Value)) : Ends (fieldsBehind x fs) := by
  cases fs with
  | nil => exact ends_cons rfl _
  | cons e r => exact ends_cons rfl _

theorem close_ne_text {c : Char} (hc : leadOf c = none) {x y : List Char} (v : Value) :
    c :: x ≠ v.text.toList ++ y := by
  intro h
  obtain ⟨d, r, hd, hlead⟩ := lead_text v
  rw [hd] at h
  rw [← (List.cons.inj h).1, hc] at hlead
  cases hlead

mutual

/-- **The text of a value tells the value, and where it ends.** -/
theorem text_append : ∀ (v w : Value) (x y : List Char), Ends x → Ends y →
    v.text.toList ++ x = w.text.toList ++ y → v = w ∧ x = y
  | null => fun w x y hx hy h => by
    have hl := lead_eq h
    cases w with
    | null => exact ⟨rfl, List.append_cancel_left h⟩
    | bool b => cases b <;> cases hl
    | _ => cases hl
  | bool b => fun w x y hx hy h => by
    have hl := lead_eq h
    cases w with
    | bool b' =>
      cases b <;> cases b' <;> first | exact ⟨rfl, List.append_cancel_left h⟩ | cases hl
    | _ => cases b <;> cases hl
  | int n => fun _ _ _ hx hy h => number_append rfl (lead_eq h).symm hx hy h
  | float z => fun _ _ _ hx hy h => number_append rfl (lead_eq h).symm hx hy h
  | str s => fun w x y hx hy h => by
    have hl := lead_eq h
    cases w with
    | str t =>
      rw [text, text] at h
      obtain ⟨hst, hxy⟩ := quote_append h
      exact ⟨by rw [hst], hxy⟩
    | bool b => cases b <;> cases hl
    | _ => cases hl
  | arr xs => fun w x y hx hy h => by
    have hl := lead_eq h
    cases w with
    | arr ys =>
      rw [text_arr_append, text_arr_append] at h
      obtain ⟨hxs, hxy⟩ := textItems_append (List.cons.inj h).2
      exact ⟨by rw [hxs], hxy⟩
    | bool b => cases b <;> cases hl
    | _ => cases hl
  | obj fs => fun w x y hx hy h => by
    have hl := lead_eq h
    cases w with
    | obj gs =>
      rw [text_obj_append, text_obj_append] at h
      obtain ⟨hfs, hxy⟩ := textFields_append (List.cons.inj h).2
      exact ⟨by rw [hfs], hxy⟩
    | bool b => cases b <;> cases hl
    | _ => cases hl

theorem textItems_append : ∀ {xs ys : List Value} {x y : List Char},
    (textItems xs).toList ++ ']' :: x = (textItems ys).toList ++ ']' :: y → xs = ys ∧ x = y
  | [], [], x, y, h => ⟨rfl, (List.cons.inj h).2⟩
  | [], b :: ys, x, y, h => by
    rw [textItems_cons] at h
    exact absurd h (close_ne_text rfl b)
  | a :: xs, [], x, y, h => by
    rw [textItems_cons] at h
    exact absurd h.symm (close_ne_text rfl a)
  | a :: xs, b :: ys, x, y, h => by
    rw [textItems_cons, textItems_cons] at h
    obtain ⟨hab, hrest⟩ := text_append a b _ _ (ends_itemsBehind x xs) (ends_itemsBehind y ys) h
    cases xs with
    | nil =>
      cases ys with
      | nil => exact ⟨by rw [hab], (List.cons.inj hrest).2⟩
      | cons b' ys => exact absurd (List.cons.inj hrest).1 (by decide)
    | cons a' xs =>
      cases ys with
      | nil => exact absurd (List.cons.inj hrest).1 (by decide)
      | cons b' ys =>
        obtain ⟨hxs, hxy⟩ := textItems_append (List.cons.inj hrest).2
        exact ⟨by rw [hab, hxs], hxy⟩

theorem textFields_append : ∀ {fs gs : List (String × Value)} {x y : List Char},
    (textFields fs).toList ++ '\x7d' :: x = (textFields gs).toList ++ '\x7d' :: y → fs = gs ∧ x = y
  | [], [], x, y, h => ⟨rfl, (List.cons.inj h).2⟩
  | [], (k', w) :: gs, x, y, h => by
    rw [textFields_cons, toList_quote] at h
    exact absurd (List.cons.inj h).1 (by decide)
  | (k, v) :: fs, [], x, y, h => by
    rw [textFields_cons, toList_quote] at h
    exact absurd (List.cons.inj h).1 (by decide)
  | (k, v) :: fs, (k', w) :: gs, x, y, h => by
    rw [textFields_cons, textFields_cons] at h
    obtain ⟨hk, hvalue⟩ := quote_append h
    obtain ⟨hvw, hrest⟩ := text_append v w _ _ (ends_fieldsBehind x fs) (ends_fieldsBehind y gs)
      (List.cons.inj hvalue).2
    cases fs with
    | nil =>
      cases gs with
      | nil => exact ⟨by rw [hk, hvw], (List.cons.inj hrest).2⟩
      | cons e gs => exact absurd (List.cons.inj hrest).1 (by decide)
    | cons e fs =>
      cases gs with
      | nil => exact absurd (List.cons.inj hrest).1 (by decide)
      | cons e' gs =>
        obtain ⟨hfs, hxy⟩ := textFields_append (List.cons.inj hrest).2
        exact ⟨by rw [hk, hvw, hfs], hxy⟩

end

/-- **Values with one text are one value.** -/
theorem text_injective : Function.Injective text := by
  intro v w h
  have hnil : Ends [] := fun c hc => by cases hc
  exact (text_append v w _ _ hnil hnil (by rw [h])).1

end Value

end DocQuery
