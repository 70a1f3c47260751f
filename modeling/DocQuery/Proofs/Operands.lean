import DocQuery.Compile.Operator
import Mathlib.Data.List.DropRight

/-!
# Operands — what the operand of a condition says

An operand lists values, asks for something or does not, and may give a length.  These readings are told without the
compiler, which takes every operand just so (`Compiled.operandList_eq`, `Compiled.isTruthy_eq`,
`Compiled.lengthOperand?_eq`).
-/
namespace DocQuery

namespace Comparator

def bare (cs : List Char) : List Char := (cs.dropWhile Text.isBlank).rdropWhile Text.isBlank

/-- The values that an operand lists: those in an array, the bare parts of a text between its commas unless they are
empty, and any other value by itself. -/
def operands : Value → List Value
  | .arr xs => xs
  | .str s => (((s.toList.splitOn ',').map bare).filter (· ≠ [])).map fun part => .str (String.ofList part)
  | v => [v]

/-- Whether an operand asks for something: all do but null, false, a number that counts as zero, the text `0`, the text
`false` in any case, and what is empty. -/
def asks : Value → Bool
  | .null => false
  | .bool b => b
  | .str s => s ≠ "" ∧ s ≠ "0" ∧ s.toList.map Char.toLower ≠ ['f', 'a', 'l', 's', 'e']
  | .arr xs => xs ≠ []
  | .obj fs => fs ≠ []
  | v => v.number?.any (· != 0)

def digits (cs : List Char) : List Char := if cs.head? = some '+' then cs.tail else cs

/-- The length that an operand gives: a whole number from zero on, or a bare text of one in base ten that fits a word of
64 bits. -/
def length? : Value → Option Nat
  | .int n => if 0 ≤ n then some n.toNat else none
  | .str s =>
    let ds := digits (bare s.toList)
    let n := Nat.ofDigitChars 10 ds 0
    if ds ≠ [] ∧ ds.all Char.isDigit ∧ n < Nat.pow 2 64 then some n else none
  | _ => none

theorem lower_trim (op : String) : Text.lower (Text.trim op) = String.ofList ((bare op.toList).map Char.toLower) := by
  rw [Text.lower, Text.trim, String.toList_ofList]
  rfl

theorem behindSign_eq (cs : List Char) : Text.behindSign cs = digits cs := by
  unfold Text.behindSign digits
  split
  · rfl
  · rename_i hsign
    rw [if_neg]
    intro h
    obtain ⟨r, rfl⟩ := List.head?_eq_some_iff.1 h
    exact hsign r rfl

end Comparator

namespace Compiled

open Comparator

/-- **The compiler lists what an operand lists.** -/
theorem operandList_eq (v : Value) : operandList v = operands v := by
  cases v with
  | str s =>
    have hparts : (Text.cut ',' s).map Text.trim = ((s.toList.splitOn ',').map bare).map String.ofList := by
      rw [Text.cut, List.map_map, List.map_map]
      refine List.map_congr_left fun part _ => ?_
      rw [Function.comp_apply, Text.trim, String.toList_ofList]
      rfl
    have hempty : ((fun part : String => decide (part ≠ "")) ∘ String.ofList) = fun part => decide (part ≠ []) := by
      funext part
      simp [String.ofList_eq_empty_iff]
    rw [operandList, operands, Text.splitList, hparts, List.filter_map, hempty, List.map_map]
    rfl
  | _ => rfl

/-- **The compiler takes an operand to ask for something just if it does.** -/
theorem isTruthy_eq (v : Value) : isTruthy v = asks v := by
  cases v with
  | str s =>
    have hfalse : Text.sameIgnoringCase s "false" = decide (s.toList.map Char.toLower = ['f', 'a', 'l', 's', 'e']) := by
      have hlower : Text.lower "false" = String.ofList ['f', 'a', 'l', 's', 'e'] := by decide
      rw [Text.sameIgnoringCase, hlower, Text.lower, Bool.eq_iff_iff, beq_iff_eq, decide_eq_true_eq,
        String.ofList_inj]
    rw [isTruthy, asks, hfalse, Bool.not_or, Bool.not_or, Bool.and_assoc, Bool.decide_and, Bool.decide_and]
    simp only [decide_not, beq_eq_decide]
  | arr xs => cases xs <;> rfl
  | obj fs => cases fs <;> rfl
  | _ => rfl

/-- **The compiler reads the length that an operand gives.** -/
theorem lengthOperand?_eq (v : Value) : lengthOperand? v = length? v := by
  cases v with
  | str s =>
    have hnumeral : ∀ n, Text.unsigned64? (Text.trim s) = some n ↔ digits (bare s.toList) ≠ [] ∧
        (digits (bare s.toList)).all Char.isDigit = true ∧ Nat.ofDigitChars 10 (digits (bare s.toList)) 0 = n ∧
        n < Nat.pow 2 64 := fun n => by
      rw [Text.unsigned64?, Text.unsignedBelow?_eq_some_iff, Text.trim, String.toList_ofList, Text.numeral_iff,
        behindSign_eq, and_assoc, and_assoc, List.all_eq_true]
      rfl
    refine Option.ext fun n => ?_
    rw [lengthOperand?, hnumeral, length?, Option.ite_none_right_eq_some, Option.some.injEq]
    constructor
    · rintro ⟨hne, hdigits, rfl, hlt⟩
      exact ⟨⟨hne, hdigits, hlt⟩, rfl⟩
    · rintro ⟨⟨hne, hdigits, hlt⟩, rfl⟩
      exact ⟨hne, hdigits, rfl, hlt⟩
  | _ => rfl

end Compiled

end DocQuery
