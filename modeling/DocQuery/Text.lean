import DocQuery.Unicode.Category
import DocQuery.Unicode.Property

/-!
# Text

Cutting at a separator, trimming, the case of the letters `A` to `Z`, numbers in base ten, and quoting.  Trimming takes
the blanks around a text that has none (`trimList_append`); just the texts of numbers below a bound are read
(`unsignedBelow?_eq_some_iff`).
-/
namespace DocQuery.Text

/-! ## Cutting and joining -/

/-- The parts of a text between the separators; there is one part more than there are separators. -/
def cut (sep : Char) (s : String) : List String := (s.toList.splitOn sep).map String.ofList

def join (sep : String) : List String → String
  | [] => ""
  | [p] => p
  | p :: q :: ps => p ++ sep ++ join sep (q :: ps)

def startsWith (s start : String) : Bool := start.toList.isPrefixOf s.toList

def after? (start s : String) : Option String :=
  if startsWith s start then some (String.ofList (s.toList.drop start.toList.length)) else none

def hasChar (c : Char) (s : String) : Bool := s.toList.contains c

def dropLeading (c : Char) (s : String) : String := String.ofList (s.toList.dropWhile (· == c))

theorem cut_ne_nil (sep : Char) (s : String) : cut sep s ≠ [] := by
  simp [cut, List.splitOn_ne_nil]

theorem not_mem_of_hasChar {c : Char} {s : String} (h : hasChar c s = false) : c ∉ s.toList := by
  simpa [hasChar] using h

theorem cut_eq_self {sep : Char} {s : String} (h : hasChar sep s = false) : cut sep s = [s] := by
  rw [cut, List.splitOn_eq_singleton (not_mem_of_hasChar h), List.map_singleton, String.ofList_toList]

theorem not_mem_of_mem_splitOn {sep : Char} : ∀ {s p : List Char}, p ∈ s.splitOn sep → sep ∉ p
  | [], p, h => by
    rw [List.splitOn_nil, List.mem_singleton] at h
    simp [h]
  | c :: s, p, h => by
    rw [List.splitOn_cons_eq_if_modifyHead] at h
    split at h
    · rcases List.mem_cons.1 h with rfl | h
      · exact List.not_mem_nil
      · exact not_mem_of_mem_splitOn h
    · rename_i hne
      obtain ⟨q, qs, hcut⟩ := List.exists_cons_of_ne_nil (List.splitOn_ne_nil sep s)
      have hall : ∀ x ∈ s.splitOn sep, sep ∉ x := fun x hx => not_mem_of_mem_splitOn hx
      rw [hcut, List.forall_mem_cons] at hall
      rw [hcut, List.modifyHead_cons] at h
      rcases List.mem_cons.1 h with rfl | h
      · rw [List.mem_cons, not_or]
        exact ⟨fun heq => hne (by simp [heq]), hall.1⟩
      · exact hall.2 p h

theorem hasChar_of_mem_cut {sep : Char} {s p : String} (h : p ∈ cut sep s) : hasChar sep p = false := by
  obtain ⟨q, hq, rfl⟩ := List.mem_map.1 h
  simpa [hasChar] using not_mem_of_mem_splitOn hq

theorem cut_append {sep : Char} {s p r : String} (hs : s.toList = p.toList ++ sep :: r.toList)
    (h : hasChar sep p = false) : cut sep s = p :: cut sep r := by
  rw [cut, hs, List.splitOn_append_cons_self_of_not_mem (not_mem_of_hasChar h), List.map_cons, String.ofList_toList,
    cut]

/-- **Parts that are put together are cut apart again.** -/
theorem cut_join {sep : Char} : ∀ {parts : List String}, parts ≠ [] → (∀ p ∈ parts, hasChar sep p = false) →
    cut sep (join (String.singleton sep) parts) = parts
  | [p], _, h => cut_eq_self (h p List.mem_cons_self)
  | p :: q :: ps, _, h => by
    obtain ⟨hp, hrest⟩ := List.forall_mem_cons.1 h
    have htext : (p ++ String.singleton sep ++ join (String.singleton sep) (q :: ps)).toList =
        p.toList ++ sep :: (join (String.singleton sep) (q :: ps)).toList := by simp
    rw [join, cut_append htext hp, cut_join (List.cons_ne_nil q ps) hrest]

/-! ## Blanks -/

/-- The characters with the property `White_Space`. -/
def isBlank (c : Char) : Bool :=
  let n := c.toNat
  (0x09 ≤ n && n ≤ 0x0D) || n == 0x20 || n == 0x85 || n == 0xA0 || n == 0x1680 || (0x2000 ≤ n && n ≤ 0x200A) ||
    n == 0x2028 || n == 0x2029 || n == 0x202F || n == 0x205F || n == 0x3000

def trimList (s : List Char) : List Char := ((s.dropWhile isBlank).reverse.dropWhile isBlank).reverse

def trim (s : String) : String := String.ofList (trimList s.toList)

/-- The trimmed parts of a comma list, blank ones left out. -/
def splitList (s : String) : List String := ((cut ',' s).map trim).filter (· ≠ "")

theorem isBlank_of_isDigit {c : Char} (h : c.isDigit = true) : isBlank c = false := by
  have hbounds : 48 ≤ c.toNat ∧ c.toNat ≤ 57 := by
    simpa [Char.isDigit, UInt32.le_iff_toNat_le] using h
  simp only [isBlank, Bool.or_eq_false_iff, Bool.and_eq_false_iff, decide_eq_false_iff_not, beq_eq_false_iff_ne]
  omega

def Blanks (s : List Char) : Prop := ∀ c ∈ s, isBlank c = true

theorem blanks_takeWhile (s : List Char) : Blanks (s.takeWhile isBlank) := fun _ hc =>
  List.all_eq_true.1 List.all_takeWhile _ hc

theorem exists_trimList (s : List Char) : ∃ l r, s = l ++ trimList s ++ r ∧ Blanks l ∧ Blanks r := by
  refine ⟨s.takeWhile isBlank, ((s.dropWhile isBlank).reverse.takeWhile isBlank).reverse, ?_, blanks_takeWhile s,
    fun c hc => blanks_takeWhile _ c (List.mem_reverse.1 hc)⟩
  rw [List.append_assoc, trimList, ← List.reverse_append, List.takeWhile_append_dropWhile, List.reverse_reverse,
    List.takeWhile_append_dropWhile]

theorem dropWhile_blanks {l t : List Char} (hl : Blanks l) (ht : ∀ c ∈ t.head?, isBlank c = false) :
    (l ++ t).dropWhile isBlank = t := by
  rw [List.dropWhile_append_of_pos hl]
  cases t with
  | nil => rfl
  | cons c t => rw [List.dropWhile_cons_of_neg (by simp [ht c rfl])]

/-- **Trimming takes the blanks around a text that has none.** -/
theorem trimList_append {l t r : List Char} (hl : Blanks l) (hr : Blanks r) (ht : ∀ c ∈ t, isBlank c = false)
    (hne : t ≠ []) : trimList (l ++ t ++ r) = t := by
  have hfront : (l ++ t ++ r).dropWhile isBlank = t ++ r := by
    rw [List.append_assoc]
    refine dropWhile_blanks hl fun c hc => ht c ?_
    obtain ⟨d, t', rfl⟩ := List.exists_cons_of_ne_nil hne
    rw [Option.some.inj hc]
    exact List.mem_cons_self
  have hback : (t ++ r).reverse.dropWhile isBlank = t.reverse := by
    rw [List.reverse_append]
    exact dropWhile_blanks (fun c hc => hr c (List.mem_reverse.1 hc)) fun c hc =>
      ht c (List.mem_reverse.1 (List.mem_of_mem_head? hc))
  rw [trimList, hfront, hback, List.reverse_reverse]

theorem mem_trimList {c : Char} (hc : isBlank c = false) {s : List Char} (h : c ∈ s) : c ∈ trimList s := by
  obtain ⟨l, r, hs, hl, hr⟩ := exists_trimList s
  have hne : ¬ isBlank c = true := by simp [hc]
  rw [hs] at h
  rcases List.mem_append.1 h with h | h
  · exact (List.mem_append.1 h).resolve_left fun h => hne (hl c h)
  · exact absurd (hr c h) hne

/-! ## Letter case -/

/-- The text with `A` to `Z` in lower case. -/
def lower (s : String) : String := String.ofList (s.toList.map Char.toLower)

def sameIgnoringCase (a b : String) : Bool := lower a == lower b

def snakeTail : List Char → List Char
  | [] => []
  | c :: r => if c.isUpper then '_' :: c.toLower :: snakeTail r else c :: snakeTail r

/-- A capitalised name in lower case, with an underscore before each inner capital. -/
def snake (s : String) : String :=
  match s.toList with
  | [] => ""
  | c :: r => String.ofList (c.toLower :: snakeTail r)

/-! ## Numbers -/

def digitsValue? : List Char → Nat → Option Nat
  | [], acc => some acc
  | c :: r, acc => if c.isDigit then digitsValue? r (acc * 10 + (c.toNat - 48)) else none

def behindSign : List Char → List Char
  | '+' :: r => r
  | r => r

/-- Reads an unsigned number below a bound: at least one digit, behind a plus sign or none. -/
def unsignedBelow? (bound : Nat) (s : String) : Option Nat :=
  let digits := behindSign s.toList
  if digits.isEmpty then none else (digitsValue? digits 0).filter (· < bound)

def unsigned64? (s : String) : Option Nat := unsignedBelow? (Nat.pow 2 64) s

inductive Numeral : List Char → Nat → Prop
  | bare {digits : List Char} (hne : digits ≠ []) (h : ∀ c ∈ digits, c.isDigit = true) :
      Numeral digits (Nat.ofDigitChars 10 digits 0)
  | signed {digits : List Char} (hne : digits ≠ []) (h : ∀ c ∈ digits, c.isDigit = true) :
      Numeral ('+' :: digits) (Nat.ofDigitChars 10 digits 0)

theorem digitsValue?_eq_some_iff : ∀ {cs : List Char} {acc n : Nat},
    digitsValue? cs acc = some n ↔ (∀ c ∈ cs, c.isDigit = true) ∧ Nat.ofDigitChars 10 cs acc = n
  | [], acc, n => by simp [digitsValue?]
  | c :: cs, acc, n => by
    rw [digitsValue?, List.forall_mem_cons, Nat.ofDigitChars_cons, Nat.mul_comm 10 acc]
    by_cases hc : c.isDigit = true
    · rw [if_pos hc, digitsValue?_eq_some_iff, and_iff_right hc]
      rfl
    · rw [if_neg hc]
      exact iff_of_false nofun fun h => hc h.1.1

theorem numeral_iff {cs : List Char} {n : Nat} : Numeral cs n ↔
    behindSign cs ≠ [] ∧ (∀ c ∈ behindSign cs, c.isDigit = true) ∧ Nat.ofDigitChars 10 (behindSign cs) 0 = n := by
  unfold behindSign
  split
  · constructor
    · intro h
      cases h with
      | signed hne h => exact ⟨hne, h, rfl⟩
      | bare _ h => cases h '+' List.mem_cons_self
    · rintro ⟨hne, h, rfl⟩
      exact .signed hne h
  · rename_i hsign
    constructor
    · intro h
      cases h with
      | signed => exact absurd rfl (hsign _)
      | bare hne h => exact ⟨hne, h, rfl⟩
    · rintro ⟨hne, h, rfl⟩
      exact .bare hne h

/-- **Just the texts of numbers below a bound are read**, each as its number. -/
theorem unsignedBelow?_eq_some_iff {bound n : Nat} {s : String} :
    unsignedBelow? bound s = some n ↔ Numeral s.toList n ∧ n < bound := by
  rw [unsignedBelow?, numeral_iff, ← digitsValue?_eq_some_iff, ← List.isEmpty_eq_false_iff]
  cases (behindSign s.toList).isEmpty with
  | true => simp
  | false => simp [Option.filter_eq_some_iff]

example : unsigned64? "+01" = some 1 := by decide
example : unsigned64? "-1" = none := by decide

theorem Numeral.mem {cs : List Char} {n : Nat} (h : Numeral cs n) {c : Char} (hc : c ∈ cs) :
    c = '+' ∨ c.isDigit = true := by
  cases h with
  | bare _ h => exact .inr (h c hc)
  | signed _ h =>
    rcases List.mem_cons.1 hc with rfl | hc
    · exact .inl rfl
    · exact .inr (h c hc)

theorem Numeral.ne_nil {cs : List Char} {n : Nat} (h : Numeral cs n) : cs ≠ [] := by
  cases h with
  | bare hne _ => exact hne
  | signed _ _ => exact List.cons_ne_nil _ _

theorem Numeral.not_blank {cs : List Char} {n : Nat} (h : Numeral cs n) {c : Char} (hc : c ∈ cs) :
    isBlank c = false := by
  rcases h.mem hc with rfl | hc
  · rfl
  · exact isBlank_of_isDigit hc

/-! ## Quoting -/

/-- Characters that are shown by their code points: those that extend the character before them, and all without a
visible form but the space. -/
def isHidden (c : Char) : Bool :=
  if c.toNat < 0x7F then c.toNat < 0x20
  else Unicode.graphemeExtend.contains c || Unicode.inCategories Unicode.invisible c

def codePoint (c : Char) : List Char := ['\\', 'u', '\x7b'] ++ Nat.toDigits 16 c.toNat ++ ['\x7d']

def showChar (c : Char) : List Char :=
  if c = '\x00' then ['\\', '0']
  else if c = '\t' then ['\\', 't']
  else if c = '\r' then ['\\', 'r']
  else if c = '\n' then ['\\', 'n']
  else if c = '\\' then ['\\', '\\']
  else if c = '"' then ['\\', '"']
  else if isHidden c then codePoint c
  else [c]

/-- A text in quotes, with all its characters visible. -/
def shown (s : String) : String := String.ofList ('"' :: s.toList.flatMap showChar ++ ['"'])

end DocQuery.Text
