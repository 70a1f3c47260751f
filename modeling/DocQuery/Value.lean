import DocQuery.Keyed

/-!
# Values — what documents are made of

A document is an object: a keyed list of values.  Whole numbers and floats are different kinds and never equal, the
order of an object's keys does not count for equality.
-/
namespace DocQuery

/-- A document value.  Whole numbers lie between `-2^63` and `2^64 - 1`. -/
inductive Value where
  | null
  | bool (b : Bool)
  | int (n : Int)
  | float (x : Float)
  | str (s : String)
  | arr (items : List Value)
  | obj (fields : List (String × Value))
  deriving Inhabited

abbrev Fields := Keyed String Value

namespace Value

mutual

/-- Equality of values: numbers are equal only within their kind, objects up to the order of their keys. -/
def beq : Value → Value → Bool
  | null, null => true
  | bool a, bool b => a == b
  | int a, int b => a == b
  | float a, float b => a == b
  | str a, str b => a == b
  | arr a, arr b => beqItems a b
  | obj a, obj b => a.length == b.length && beqFields a b
  | _, _ => false

def beqItems : List Value → List Value → Bool
  | [], [] => true
  | x :: xs, y :: ys => x.beq y && beqItems xs ys
  | _, _ => false

/-- Whether every field has an equal one of the same key in another object. -/
def beqFields : List (String × Value) → List (String × Value) → Bool
  | [], _ => true
  | (k, v) :: r, other =>
    (match Keyed.get? other k with
      | some w => v.beq w
      | none => false) && beqFields r other

end

instance : BEq Value := ⟨beq⟩

/-- The value of a finite float; one that is no number or infinite has no value and gives `null`. -/
def ofFloat (x : Float) : Value := if x.isFinite then float x else null

def ofNat (n : Nat) : Value := int n

def ofStrings (ss : List String) : Value := arr (ss.map str)

def single (key : String) (v : Value) : Value := obj [(key, v)]

/-- The numeric reading of a number: whole numbers go to the nearest float. -/
def number? : Value → Option Float
  | int n => some (Float.ofInt n)
  | float x => some x
  | _ => none

def signed? : Value → Option Int
  | int n => if -Int.pow 2 63 ≤ n ∧ n < Int.pow 2 63 then some n else none
  | _ => none

/-- The whole number that a signed word of 64 bits keeps: what is beyond the word wraps around. -/
def wrapped (n : Int) : Int := n.bmod (Nat.pow 2 64)

theorem wrapped_of_fits {n : Int} (h : -Int.pow 2 63 ≤ n ∧ n < Int.pow 2 63) : wrapped n = n := by
  have hlow : -9223372036854775808 ≤ n := h.1
  have hhigh : n < 9223372036854775808 := h.2
  show n.bmod 18446744073709551616 = n
  exact Int.bmod_eq_of_le_mul_two (by omega) (by omega)

theorem wrapped_of_signed? {n : Int} (h : (int n).signed? = some n) : wrapped n = n := by
  rw [signed?, Option.ite_none_right_eq_some] at h
  exact wrapped_of_fits h.1

def unsigned? : Value → Option Nat
  | int n => if 0 ≤ n then some n.toNat else none
  | _ => none

def str? : Value → Option String
  | str s => some s
  | _ => none

def bool? : Value → Option Bool
  | bool b => some b
  | _ => none

def items? : Value → Option (List Value)
  | arr xs => some xs
  | _ => none

def fields? : Value → Option Fields
  | obj fs => some fs
  | _ => none

def field? (v : Value) (key : String) : Option Value := v.fields?.bind (Keyed.get? · key)

def isNull : Value → Bool
  | null => true
  | _ => false

def isArr : Value → Bool
  | arr _ => true
  | _ => false

def isObj : Value → Bool
  | obj _ => true
  | _ => false

def orNull (v : Option Value) : Value := v.getD null

end Value

end DocQuery
