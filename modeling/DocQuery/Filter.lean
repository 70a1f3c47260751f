import DocQuery.Decimal
import DocQuery.Pattern.Parser
import DocQuery.Text
import DocQuery.Value.Order
import DocQuery.Value.Path

/-!
# Filters — which documents are meant

A filter document is read once into a `Filter` and then asked about documents.  Reading refuses what it does not know;
asking always answers.  All clauses of a filter must hold.
-/
namespace DocQuery

/-- A test of the value at a path, which may be missing. -/
inductive Test where
  | eq (v : Value)
  | ne (v : Value)
  | gt (v : Value)
  | gte (v : Value)
  | lt (v : Value)
  | lte (v : Value)
  | isIn (vs : List Value)
  | notIn (vs : List Value)
  | all (vs : List Value)
  | present (wanted : Bool)
  | kind (name : String)
  | pattern (p : Pattern)
  | size (n : Nat)
  | mod (divisor remainder : Float)
  | not (tests : List Test)

inductive Junction where
  | and
  | or
  | nor
  | xor
  deriving DecidableEq

inductive Clause where
  | field (path : String) (tests : List Test)
  /-- branches, each with the clauses that must hold in it -/
  | junction (j : Junction) (branches : List (List Clause))

/-- The clauses that must hold. -/
abbrev Filter := List Clause

namespace Value

mutual

/-- Equality as filters see it: numbers by their numeric reading, and an array equals what one of its items equals. -/
def meets : Value → Value → Bool
  | arr xs, target => (arr xs).beq target || (!target.isArr && itemMeets xs target)
  | v, target =>
    v.beq target || (match v.number?, target.number? with
      | some x, some y => x == y
      | _, _ => false)

def itemMeets : List Value → Value → Bool
  | [], _ => false
  | x :: xs, target => x.meets target || itemMeets xs target

end

/-- Equality for a value that may be missing: a missing value meets `null`. -/
def meetsMissing (v : Option Value) (target : Value) : Bool :=
  match v with
  | some v => v.meets target
  | none => target.isNull

/-- Whether a value, or an item of an array, stands in an accepted order to a target. -/
def ordered (accept : Ordering → Bool) (v : Option Value) (target : Value) : Bool :=
  let accepted (w : Value) : Bool := (w.order? target).any accept
  match v with
  | some (arr xs) => if target.isArr then accepted (arr xs) else xs.any accepted
  | some v => accepted v
  | none => false

def kindName (v : Value) : String :=
  if (ObjectId.ofValue? v).isSome then "objectid"
  else match v with
    | null => "null"
    | bool _ => "bool"
    | float _ => "double"
    | int _ => "int"
    | str _ => "string"
    | arr _ => "array"
    | obj _ => "object"

def matchesPattern (p : Pattern) : Option Value → Bool
  | some (str s) => p.isMatch s
  | some (arr xs) => xs.any fun v => v.str?.any p.isMatch
  | _ => false

/-- An object whose keys are all operators; identifiers and the empty object are not. -/
def operators? : Value → Option Fields
  | obj fs =>
    if !fs.isEmpty && fs.all (fun e => Text.startsWith e.1 "$") && !Keyed.has fs ObjectId.fieldKey then some fs
    else none
  | _ => none

end Value

namespace Test

mutual

def holds : Test → Option Value → Bool
  | eq t, v => Value.meetsMissing v t
  | ne t, v => !Value.meetsMissing v t
  | gt t, v => Value.ordered (· == .gt) v t
  | gte t, v => Value.ordered (· != .lt) v t
  | lt t, v => Value.ordered (· == .lt) v t
  | lte t, v => Value.ordered (· != .gt) v t
  | isIn ts, v => ts.any (Value.meetsMissing v)
  | notIn ts, v => !ts.any (Value.meetsMissing v)
  | all ts, v =>
    match v with
    | some (.arr xs) => ts.all fun t => xs.any (·.meets t)
    | _ => false
  | present wanted, v => v.isSome == wanted
  | kind name, v => v.any (·.kindName == name)
  | pattern p, v => Value.matchesPattern p v
  | size n, v =>
    match v with
    | some (.arr xs) => xs.length == n
    | _ => false
  | mod divisor remainder, v => (v.bind Value.number?).any fun x => Decimal.truncRem x divisor == remainder
  | not tests, v => !allHold tests v

def allHold : List Test → Option Value → Bool
  | [], _ => true
  | t :: ts, v => t.holds v && allHold ts v

end

end Test

namespace Filter

mutual

def clauseHolds (doc : Value) : Clause → Bool
  | .field path tests => Test.allHold tests (doc.path? path)
  | .junction .and branches => countHolding doc branches == branches.length
  | .junction .or branches => countHolding doc branches != 0
  | .junction .nor branches => countHolding doc branches == 0
  | .junction .xor branches => countHolding doc branches == 1

def allHold (doc : Value) : List Clause → Bool
  | [] => true
  | c :: cs => clauseHolds doc c && allHold doc cs

def countHolding (doc : Value) : List (List Clause) → Nat
  | [] => 0
  | b :: bs => (if allHold doc b then 1 else 0) + countHolding doc bs

end

def holds (f : Filter) (doc : Value) : Bool := allHold doc f

end Filter

end DocQuery
