import DocQuery.Proofs.ValueOrder

/-!
# The texts of identifiers

A text is that of an identifier just if it has 24 digits of base sixteen (`ObjectId.parse_isOk_iff`), and what is read
from it is written again with its letters in lower case.  Two digits keep the order of the bytes they stand for, so
identifiers have the order of the bytes of their texts (`ObjectId.compare_text`).
-/
namespace DocQuery

theorem Text.bytes_ofList {cs : List Char} (h : ∀ c ∈ cs, c.toNat < 128) :
    (String.ofList cs).toUTF8.data.toList = cs.map fun c => UInt8.ofNat c.toNat := by
  rw [String.toUTF8_eq_toByteArray, String.toByteArray_ofList, List.utf8Encode, List.toList_data_toByteArray]
  induction cs with
  | nil => rfl
  | cons c cs ih =>
    have hone : String.utf8EncodeChar c = [UInt8.ofNat c.toNat] := by
      have hc : c.val.toNat ≤ 0x7f := Nat.le_of_lt_succ (h c List.mem_cons_self)
      rw [String.utf8EncodeChar]
      exact if_pos hc
    rw [List.flatMap_cons, hone, ih fun c' hc' => h c' (List.mem_cons_of_mem _ hc'), List.map_cons]
    rfl

namespace ObjectId

/-! ## Reading -/

theorem digit?_plain : ∀ k < 128, (digit? (Char.ofNat k)).isSome = true →
    Char.ofNat k ∈ "0123456789abcdefABCDEF".toList := by decide

theorem digit?_isSome {c : Char} : (digit? c).isSome = true ↔ c ∈ "0123456789abcdefABCDEF".toList := by
  constructor
  · intro h
    obtain ⟨n, hn⟩ := Option.isSome_iff_exists.1 h
    have hplain := digit?_plain c.toNat (toNat_lt_of_digit? hn)
    rw [Char.ofNat_toNat] at hplain
    exact hplain h
  · intro h
    have hall : ("0123456789abcdefABCDEF".toList.all fun c => (digit? c).isSome) = true := by decide
    exact List.all_eq_true.1 hall c h

theorem exists_bytesOfDigits? : ∀ {cs : List Char} {n : Nat},
    (∃ bytes, bytesOfDigits? cs = some bytes ∧ bytes.length = n) ↔
      cs.length = 2 * n ∧ ∀ c ∈ cs, (digit? c).isSome = true
  | [], n => by
    constructor
    · rintro ⟨bytes, hbytes, rfl⟩
      cases hbytes
      exact ⟨rfl, nofun⟩
    · rintro ⟨hlength, -⟩
      have hzero : 0 = 2 * n := hlength
      obtain rfl : 0 = n := by omega
      exact ⟨[], rfl, rfl⟩
  | [c], n => by
    refine iff_of_false nofun fun h => ?_
    have hlength : 1 = 2 * n := h.1
    omega
  | hi :: lo :: cs, n => by
    rw [List.forall_mem_cons, List.forall_mem_cons, bytesOfDigits?]
    cases digit? hi with
    | none => simp
    | some h =>
      cases digit? lo with
      | none => simp
      | some l =>
        cases n with
        | zero => cases bytesOfDigits? cs <;> simp
        | succ n =>
          have hlength : (hi :: lo :: cs).length = 2 * (n + 1) ↔ cs.length = 2 * n := by
            simp only [List.length_cons]
            omega
          simp only [hlength, Option.isSome_some, true_and, ← exists_bytesOfDigits?]
          cases bytesOfDigits? cs <;> simp

/-! ## Order -/

def digitByte (n : Nat) : UInt8 := UInt8.ofNat (Text.hexDigit n).toNat

theorem digitByte_lt : ∀ m < 16, ∀ n < 16, (digitByte m < digitByte n ↔ m < n) := by decide

def digitBytes : List UInt8 → List UInt8
  | [] => []
  | b :: bs => digitByte (b.toNat / 16) :: digitByte (b.toNat % 16) :: digitBytes bs

theorem map_digitsOfBytes : ∀ bytes : List UInt8,
    (digitsOfBytes bytes).map (fun c => UInt8.ofNat c.toNat) = digitBytes bytes
  | [] => rfl
  | b :: bytes => by
    rw [digitsOfBytes, List.map_cons, List.map_cons, map_digitsOfBytes bytes]
    rfl

theorem bytes_text (id : ObjectId) : id.text.toUTF8.data.toList = digitBytes id.bytes := by
  have hplain : ∀ c ∈ digitsOfBytes id.bytes, c.toNat < 128 := by
    intro c hc
    have hall : ("0123456789abcdef".toList.all fun c => decide (c.toNat < 128)) = true := by decide
    exact of_decide_eq_true (List.all_eq_true.1 hall c (mem_digitsOfBytes hc))
  rw [text, Text.bytes_ofList hplain, map_digitsOfBytes]

/-- **Digits keep the order of bytes.** -/
theorem compareBytes_digitBytes : ∀ as bs : List UInt8,
    compareBytes (digitBytes as) (digitBytes bs) = compareBytes as bs
  | [], [] => rfl
  | [], _ :: _ => rfl
  | _ :: _, [] => rfl
  | a :: as, b :: bs => by
    have hhigh : ∀ x y : UInt8, digitByte (x.toNat / 16) < digitByte (y.toNat / 16) ↔ x.toNat / 16 < y.toNat / 16 := by
      intro x y
      have hx := x.toNat_lt
      have hy := y.toNat_lt
      exact digitByte_lt _ (by omega) _ (by omega)
    have hlow : ∀ x y : UInt8, digitByte (x.toNat % 16) < digitByte (y.toNat % 16) ↔ x.toNat % 16 < y.toNat % 16 := by
      intro x y
      exact digitByte_lt _ (by omega) _ (by omega)
    simp only [digitBytes, compareBytes, compareBytes_digitBytes as bs, hhigh, hlow, UInt8.lt_iff_toNat_lt]
    -- the high digits decide, and where they are equal the low ones do
    rcases Nat.lt_trichotomy (a.toNat / 16) (b.toNat / 16) with h | h | h
    · rw [if_pos h, if_pos (by omega)]
    · have hlt : a.toNat % 16 < b.toNat % 16 ↔ a.toNat < b.toNat := by omega
      have hgt : b.toNat % 16 < a.toNat % 16 ↔ b.toNat < a.toNat := by omega
      rw [if_neg (by omega), if_neg (by omega)]
      simp only [hlt, hgt]
    · rw [if_neg (by omega), if_pos h, if_neg (by omega), if_pos (by omega)]

/-- **Identifiers have the order of the bytes of their texts.** -/
theorem compare_text (x y : ObjectId) :
    x.compare y = Ord.compare x.text.toUTF8.data.toList y.text.toUTF8.data.toList := by
  rw [bytes_text, bytes_text, ← compareBytes_eq, compareBytes_digitBytes]
  rfl

/-! ## The codec -/

theorem parse_eq_ok_iff {s : String} {id : ObjectId} : parse s = .ok id ↔ ofText? s = some id := by
  unfold parse
  cases ofText? s <;> simp

/-- **A text is read as an identifier just if it has 24 digits of base sixteen**, in either case. -/
theorem parse_isOk_iff (s : String) :
    (∃ id, parse s = .ok id) ↔ s.length = 24 ∧ ∀ c ∈ s.toList, c ∈ "0123456789abcdefABCDEF".toList := by
  have hread : (∃ id, parse s = .ok id) ↔ ∃ bytes, bytesOfDigits? s.toList = some bytes ∧ bytes.length = 12 := by
    simp only [parse_eq_ok_iff, ofText?, Option.bind_eq_some_iff]
    constructor
    · rintro ⟨id, bytes, hbytes, hid⟩
      refine ⟨bytes, hbytes, ?_⟩
      by_contra hne
      rw [ofBytes?, dif_neg hne] at hid
      cases hid
    · rintro ⟨bytes, hbytes, hlength⟩
      exact ⟨⟨bytes, hlength⟩, bytes, hbytes, dif_pos hlength⟩
  rw [hread, exists_bytesOfDigits?, String.length_toList]
  simp only [digit?_isSome]

/-- **Texts are a codec of identifiers that keeps the order.**  Text and document form are read as the identifier they
were written for; just the texts of 24 digits of base sixteen are read, and written again in lower case; and the order
of identifiers as values is that of the bytes of their texts. -/
theorem text_codec :
    (∀ x : ObjectId, parse x.text = .ok x ∧ ofValue? x.toValue = some x) ∧
    (∀ s, (∃ x, parse s = .ok x) ↔ s.length = 24 ∧ ∀ c ∈ s.toList, c ∈ "0123456789abcdefABCDEF".toList) ∧
    (∀ s x, parse s = .ok x → x.text = Text.lower s) ∧
    ∀ x y : ObjectId, x.toValue.order? y.toValue =
      some (Ord.compare x.text.toUTF8.data.toList y.text.toUTF8.data.toList) := by
  refine ⟨fun x => ⟨parse_eq_ok_iff.2 (ofText?_text x), ofValue?_toValue x⟩, parse_isOk_iff, fun s x h => ?_,
    fun x y => ?_⟩
  · exact text_of_ofText? (parse_eq_ok_iff.1 h)
  · rw [← compare_text]
    exact Value.order?_eq_some_iff.2 (.identifiers (ofValue?_toValue x) (ofValue?_toValue y))

end ObjectId

end DocQuery
