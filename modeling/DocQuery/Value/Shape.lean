import DocQuery.Value

/-!
# Values of a known shape

Reading structures from values.  A structure is an object with its fields, in any order and among others, or an array
with the fields in their order; a name out of a list of alternatives is a text, or the single key of an object whose
value is `null`.
-/
namespace DocQuery.Value

/-- The fields of a structure: from an object as they are, from an array by their order. -/
def record? (names : List String) (v : Value) : Option Fields :=
  match v with
  | obj fs => some fs
  | arr xs => if xs.length ≤ names.length then some (names.zip xs) else none
  | _ => none

def choice? : Value → Option String
  | str s => some s
  | obj [(s, null)] => some s
  | _ => none

def fieldOr {α : Type} (fs : Fields) (key : String) (default : α) (read : Value → Option α) : Option α :=
  match Keyed.get? fs key with
  | some v => read v
  | none => some default

def optionalField {α : Type} (fs : Fields) (key : String) (read : Value → Option α) : Option (Option α) :=
  match Keyed.get? fs key with
  | some null => some none
  | some v => (read v).map some
  | none => some none

def below? (bound : Nat) (v : Value) : Option Nat := v.unsigned?.bind fun n => if n < bound then some n else none

end DocQuery.Value
