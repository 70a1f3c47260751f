import DocQuery.Filter

/-!
# Reading filter documents

Every field of a filter document is a clause: a combinator with an array of branches, or a path with a value or an
object of operators.
-/
namespace DocQuery

namespace Test

def arrayOperand (op : String) (v : Value) : Except Fault (List Value) :=
  match v with
  | .arr xs => .ok xs
  | _ => .error (.query (.arrayNeeded op))

/-- The flag of a test for presence: a truth value, or a number other than zero. -/
def flagOperand : Value → Except Fault Bool
  | .bool b => .ok b
  | .int n => .ok (Float.ofInt n != 0)
  | .float x => .ok (x != 0)
  | _ => .error (.query .existsOperand)

/-- The pattern of a test, read with the options that stand beside it. -/
def patternOperand (operators : Fields) (v : Value) : Except Fault Pattern :=
  match v with
  | .str s =>
    let options := ((Keyed.get? operators "$options").bind Value.str?).getD ""
    match Pattern.parse? (Text.hasChar 'i' options) s with
    | some p => .ok p
    | none => .error (.query .pattern)
  | _ => .error (.query .patternOperand)

def modOperand (v : Value) : Except Fault Test :=
  match v with
  | .arr [d, r] =>
    match d.number?, r.number? with
    | some d, some r => if d != 0 then .ok (.mod d r) else .error (.query .modOperand)
    | _, _ => .error (.query .modOperand)
  | _ => .error (.query .modOperand)

/-- The tests of one operator that has no tests inside; none for the options of a pattern. -/
def ofOperator (operators : Fields) (op : String) (v : Value) : Except Fault (List Test) :=
  match op with
  | "$eq" => .ok [.eq v]
  | "$ne" => .ok [.ne v]
  | "$gt" => .ok [.gt v]
  | "$gte" => .ok [.gte v]
  | "$lt" => .ok [.lt v]
  | "$lte" => .ok [.lte v]
  | "$in" => (arrayOperand op v).map fun vs => [.isIn vs]
  | "$nin" => (arrayOperand op v).map fun vs => [.notIn vs]
  | "$all" => (arrayOperand op v).map fun vs => [.all vs]
  | "$exists" => (flagOperand v).map fun b => [.present b]
  | "$type" => .ok [.kind (match v with
    | .str s => Text.lower s
    | v => v.text)]
  | "$regex" => (patternOperand operators v).map fun p => [.pattern p]
  | "$options" => .ok []
  | "$size" =>
    match v.unsigned? with
    | some n => .ok [.size n]
    | none => .error (.query .sizeOperand)
  | "$mod" => (modOperand v).map fun t => [t]
  | _ => .error (.query (.fieldOperator op))

mutual

def ofValue : Value → Except Fault (List Test)
  | .obj fs =>
    match (Value.obj fs).operators? with
    | some _ => ofOperators fs fs
    | none => .ok [.eq (.obj fs)]
  | v => .ok [.eq v]

/-- The tests of some operators; the first argument holds all operators that stand together. -/
def ofOperators (all : Fields) : List (String × Value) → Except Fault (List Test)
  | [] => .ok []
  | (op, v) :: r => do
    let first ← if op = "$not" then (ofValue v).map fun ts => [Test.not ts] else ofOperator all op v
    return first ++ (← ofOperators all r)

end

end Test

namespace Junction

def ofKey? : String → Option Junction
  | "$and" => some .and
  | "$or" => some .or
  | "$nor" => some .nor
  | "$xor" => some .xor
  | _ => none

end Junction

namespace Filter

mutual

/-- Reads a filter document; `null` is the filter without clauses. -/
def ofValue : Value → Except Fault Filter
  | .obj fs => ofFields fs
  | .null => .ok []
  | v => .error (.query (.filterShape v))

def ofFields : List (String × Value) → Except Fault (List Clause)
  | [] => .ok []
  | (key, v) :: r => do
    let clause ← match Junction.ofKey? key with
      | some j =>
        match v with
        | .arr branches => do
          let branches ← ofBranches branches
          pure (Clause.junction j branches)
        | _ => .error (.query (.arrayNeeded key))
      | none =>
        if key = "$where" then .error (.query .script)
        else if Text.startsWith key "$" then .error (.query (.logicalOperator key))
        else (Test.ofValue v).map (Clause.field key)
    return clause :: (← ofFields r)

def ofBranches : List Value → Except Fault (List (List Clause))
  | [] => .ok []
  | v :: r => do
    let branch ← ofValue v
    return branch :: (← ofBranches r)

end

end Filter

end DocQuery
