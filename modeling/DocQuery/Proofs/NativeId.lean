import DocQuery.Filter
import DocQuery.KeyRule
import DocQuery.Proofs.Equality

/-!
# Native identifiers in text and in values

The text of an identifier reads back as that identifier (`ObjectId.ofText?_text`), and every text that reads as it is
that text up to the case of its digits (`ObjectId.text_of_ofText?`).  A filter on an identifier holds only where it
occurs (`ObjectId.occurs_of_meets`).
-/
namespace DocQuery

namespace ObjectId

/-! ## The text -/

theorem digit?_hexDigit : ∀ n < 16, digit? (Text.hexDigit n) = some n := by decide

theorem bytesOfDigits?_digitsOfBytes : ∀ bytes : List UInt8, bytesOfDigits? (digitsOfBytes bytes) = some bytes
  | [] => rfl
  | b :: bytes => by
    have hhigh : b.toNat / 16 < 16 := by
      have := b.toNat_lt
      omega
    have hbyte : UInt8.ofNat (b.toNat / 16 * 16 + b.toNat % 16) = b := by
      rw [Nat.div_add_mod', UInt8.ofNat_toNat]
    rw [digitsOfBytes, bytesOfDigits?, digit?_hexDigit _ hhigh, digit?_hexDigit _ (Nat.mod_lt _ (by decide)),
      bytesOfDigits?_digitsOfBytes bytes]
    simp only [hbyte]

/-- **The text of an identifier is read back.** -/
theorem ofText?_text (id : ObjectId) : ofText? id.text = some id := by
  rw [ofText?, text, String.toList_ofList, bytesOfDigits?_digitsOfBytes, Option.bind_some, ofBytes?,
    dif_pos id.length_bytes]

theorem digit?_ascii : ∀ k < 128, ∀ n ∈ digit? (Char.ofNat k), n < 16 ∧ Text.hexDigit n = (Char.ofNat k).toLower := by
  decide

theorem toNat_lt_of_digit? {c : Char} {n : Nat} (h : digit? c = some n) : c.toNat < 128 := by
  unfold digit? at h
  split at h
  · rename_i hd
    exact Nat.lt_of_le_of_lt hd.2 (by decide)
  · split at h
    · rename_i hd
      exact Nat.lt_of_le_of_lt hd.2 (by decide)
    · split at h
      · rename_i hd
        exact Nat.lt_of_le_of_lt hd.2 (by decide)
      · cases h

theorem hexDigit_of_digit? {c : Char} {n : Nat} (h : digit? c = some n) : n < 16 ∧ Text.hexDigit n = c.toLower := by
  have hascii := digit?_ascii c.toNat (toNat_lt_of_digit? h) n
  rw [Char.ofNat_toNat] at hascii
  exact hascii h

theorem digitsOfBytes_of_bytesOfDigits? : ∀ {cs : List Char} {bytes : List UInt8}, bytesOfDigits? cs = some bytes →
    digitsOfBytes bytes = cs.map Char.toLower
  | [], _, h => by
    cases h
    rfl
  | [_], _, h => by cases h
  | hi :: lo :: cs, _, h => by
    rw [bytesOfDigits?] at h
    split at h
    · rename_i x y bytes hx hy hbytes
      cases h
      obtain ⟨hx16, hx⟩ := hexDigit_of_digit? hx
      obtain ⟨hy16, hy⟩ := hexDigit_of_digit? hy
      have hbyte : (UInt8.ofNat (x * 16 + y)).toNat = x * 16 + y := by
        rw [UInt8.toNat_ofNat']
        omega
      have hhigh : (x * 16 + y) / 16 = x := by omega
      have hlow : (x * 16 + y) % 16 = y := by omega
      rw [digitsOfBytes, hbyte, hhigh, hlow, hx, hy, digitsOfBytes_of_bytesOfDigits? hbytes]
      rfl
    · cases h

/-- **The text of an identifier is what was read, in lower case.** -/
theorem text_of_ofText? {s : String} {id : ObjectId} (h : ofText? s = some id) : id.text = Text.lower s := by
  obtain ⟨bytes, hbytes, hid⟩ := Option.bind_eq_some_iff.1 h
  unfold ofBytes? at hid
  split at hid
  · cases hid
    rw [text, digitsOfBytes_of_bytesOfDigits? hbytes, Text.lower]
  · cases hid

theorem ofValue?_toValue (id : ObjectId) : ofValue? id.toValue = some id := by
  rw [toValue, ofValue?, if_pos rfl, ofText?_text]

theorem length_digitsOfBytes : ∀ bytes : List UInt8, (digitsOfBytes bytes).length = 2 * bytes.length
  | [] => rfl
  | b :: bytes => by
    rw [digitsOfBytes, List.length_cons, List.length_cons, length_digitsOfBytes bytes, List.length_cons]
    omega

theorem length_text (id : ObjectId) : id.text.toList.length = 24 := by
  rw [text, String.toList_ofList, length_digitsOfBytes, id.length_bytes]

theorem hexDigit_mem : ∀ n < 16, Text.hexDigit n ∈ "0123456789abcdef".toList := by decide

theorem mem_digitsOfBytes : ∀ {bytes : List UInt8} {c : Char}, c ∈ digitsOfBytes bytes →
    c ∈ "0123456789abcdef".toList
  | b :: bytes, c, h => by
    have hhigh : b.toNat / 16 < 16 := by
      have := b.toNat_lt
      omega
    rcases List.mem_cons.1 h with rfl | h
    · exact hexDigit_mem _ hhigh
    · rcases List.mem_cons.1 h with rfl | h
      · exact hexDigit_mem _ (Nat.mod_lt _ (by decide))
      · exact mem_digitsOfBytes h

theorem mem_text {id : ObjectId} {c : Char} (h : c ∈ id.text.toList) : c ∈ "0123456789abcdef".toList := by
  rw [text, String.toList_ofList] at h
  exact mem_digitsOfBytes h

/-! ## Occurrences -/

/-- An identifier is a value, or is somewhere inside it. -/
inductive Occurs (id : ObjectId) : Value → Prop
  | here : Occurs id id.toValue
  | item {xs : List Value} {x : Value} (hx : x ∈ xs) (h : Occurs id x) : Occurs id (.arr xs)
  | field {fs : Fields} {e : String × Value} (he : e ∈ fs) (h : Occurs id e.2) : Occurs id (.obj fs)

/-- An identifier that is nowhere in the `_id` of some documents. -/
def Fresh (id : ObjectId) (docs : List Value) : Prop := ∀ d ∈ docs, ∀ v, d.field? "_id" = some v → ¬ id.Occurs v

theorem toValue_injective {id id' : ObjectId} (h : id.toValue = id'.toValue) : id = id' := by
  rw [← Option.some_inj, ← ofValue?_toValue, ← ofValue?_toValue, h]

theorem occurs_toValue_iff {id id' : ObjectId} : id.Occurs id'.toValue ↔ id = id' := by
  constructor
  · intro h
    generalize hv : id'.toValue = v at h
    cases h with
    | here => exact (toValue_injective hv).symm
    | item => cases hv
    | field he h =>
      cases hv
      obtain rfl := List.mem_singleton.1 he
      cases h
  · rintro rfl
    exact .here

theorem eq_single_of_ofValue? {v : Value} {id : ObjectId} (h : ofValue? v = some id) :
    ∃ s, v = .obj [(fieldKey, .str s)] ∧ ofText? s = some id := by
  unfold ofValue? at h
  split at h
  · rename_i key s
    split at h
    · rename_i hkey
      exact ⟨s, by rw [hkey], h⟩
    · cases h
  · cases h

theorem eq_toValue_of_beq {id : ObjectId} {v : Value} (h : v.beq id.toValue = true) : v = id.toValue := by
  cases v with
  | obj fs =>
    obtain ⟨gs, hgs, hlength, hfields⟩ := Value.beq_obj_iff.1 h
    cases hgs
    obtain ⟨e, rfl⟩ := List.length_eq_one_iff.1 hlength
    obtain ⟨w, hw, heq⟩ := hfields e List.mem_cons_self
    obtain ⟨key, x⟩ := e
    rw [Keyed.get?] at hw
    split at hw
    · rename_i hkey
      cases hw
      have hx : Value.str id.text = x := by
        cases x with
        | str s => rw [show s = id.text by simpa [Value.beq] using heq]
        | _ => cases heq
      rw [toValue, hkey, hx]
    · cases hw
  | _ => cases h

theorem eq_toValue_of_toValue_beq {id : ObjectId} {v : Value} (h : id.toValue.beq v = true) : v = id.toValue :=
  (Value.beq_single_str_iff.1 h).symm

mutual

/-- **Only a value with the identifier in it meets the identifier.** -/
theorem occurs_of_meets {id : ObjectId} : ∀ {v : Value}, v.meets id.toValue = true → id.Occurs v
  | .arr xs, h => by
    have hitems : Value.itemMeets xs id.toValue = true := by
      simp only [Value.meets, Value.beq, toValue, Value.isArr, Bool.not_false, Bool.true_and, Bool.false_or] at h
      exact h
    obtain ⟨x, hx, hoccurs⟩ := occurs_of_itemMeets hitems
    exact .item hx hoccurs
  | .obj fs, h => by
    have hbeq : (Value.obj fs).beq id.toValue = true := by
      simpa [Value.meets, Value.number?, toValue] using h
    rw [eq_toValue_of_beq hbeq]
    exact .here
  | .null, h | .bool _, h | .int _, h | .float _, h | .str _, h => by
    simp [Value.meets, Value.beq, Value.number?, toValue] at h

theorem occurs_of_itemMeets {id : ObjectId} : ∀ {xs : List Value}, Value.itemMeets xs id.toValue = true →
    ∃ x ∈ xs, id.Occurs x
  | [], h => by cases h
  | x :: xs, h => by
    rw [Value.itemMeets, Bool.or_eq_true] at h
    rcases h with h | h
    · exact ⟨x, List.mem_cons_self, occurs_of_meets h⟩
    · obtain ⟨y, hy, hoccurs⟩ := occurs_of_itemMeets h
      exact ⟨y, List.mem_cons_of_mem _ hy, hoccurs⟩

end

theorem meets_self (id : ObjectId) : id.toValue.meets id.toValue = true := by
  have hbeq : id.toValue.beq id.toValue = true := Value.beq_obj_iff.2 ⟨_, rfl, rfl, fun e he => by
    obtain rfl := List.mem_singleton.1 he
    exact ⟨.str id.text, by rw [Keyed.get?, if_pos rfl], beq_self_eq_true id.text⟩⟩
  rw [toValue] at hbeq ⊢
  simp [Value.meets, hbeq]

end ObjectId

theorem KeyRule.storedValue_text {r : KeyRule} {id : ObjectId} (hk : r.kind = .native) :
    r.storedValue "_id" (.str id.text) = id.toValue := by
  rw [storedValue, if_pos ⟨rfl, hk⟩, nativeIds, ObjectId.ofText?_text]

end DocQuery
