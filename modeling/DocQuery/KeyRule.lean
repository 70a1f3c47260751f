import DocQuery.ObjectId
import DocQuery.Text

/-!
# Keys — how fields are named and identifiers are stored

Callers may know the stored field `_id` as `id`, and write native identifiers as plain text.  A key rule tells whether
they do, and decides how names and values are kept in the store.
-/
namespace DocQuery

inductive KeyKind where
  /-- native identifiers, made up on insertion -/
  | native
  | supplied
  deriving DecidableEq

def KeyKind.name : KeyKind → String
  | native => "ObjectId"
  | supplied => "Auto"

/-- How fields are named and identifiers are kept in the store. -/
structure KeyRule where
  /-- whether callers know `_id` as `id` -/
  convertId : Bool
  kind : KeyKind

namespace KeyRule

def storedName (r : KeyRule) (field : String) : String :=
  if r.convertId ∧ field = "id" then "_id" else Text.trim field

mutual

/-- Texts that are identifiers become native ones, in arrays also. -/
def nativeIds : Value → Value
  | .str s =>
    match ObjectId.ofText? s with
    | some id => id.toValue
    | none => .str s
  | .arr xs => .arr (nativeItems xs)
  | v => v

def nativeItems : List Value → List Value
  | [] => []
  | x :: xs => nativeIds x :: nativeItems xs

end

/-- The stored value of a field: that of `_id` becomes native where keys are. -/
def storedValue (r : KeyRule) (storedName : String) (v : Value) : Value :=
  if storedName = "_id" ∧ r.kind = .native then nativeIds v else v

end KeyRule

end DocQuery
