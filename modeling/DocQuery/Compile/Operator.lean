import DocQuery.Fault
import DocQuery.KeyRule
import DocQuery.Text

/-!
# The operators of conditions

Every operator a caller may write stands for a plain value, for operators of the store, or for a document of its own.
Operators are compared in lower case and without blanks around them.
-/
namespace DocQuery

/-- What an operator with its operand stands for. -/
inductive Compiled where
  | equals (v : Value)
  | operators (fs : Fields)
  /-- a document that takes the place of field and condition -/
  | document (v : Value)

namespace Compiled

/-- The items of a list operand: those of an array, the parts of a comma list, or the value alone. -/
def operandList : Value → List Value
  | .arr xs => xs
  | .str s => (Text.splitList s).map .str
  | v => [v]

def rangeBounds (op : String) (v : Value) : Except Fault (Value × Value) :=
  match operandList v with
  | [low, high] => .ok (low, high)
  | _ => .error (.query (.bounds op v))

/-- Whether an operand asks for something: false, zero, `0`, `false` and everything empty do not. -/
def isTruthy : Value → Bool
  | .null => false
  | .bool b => b
  | .int n => Float.ofInt n != 0
  | .float x => x != 0
  | .str s => !(s == "" || s == "0" || Text.sameIgnoringCase s "false")
  | .arr xs => !xs.isEmpty
  | .obj fs => !fs.isEmpty

/-- The length that an operand gives, as a number or as text. -/
def lengthOperand? : Value → Option Nat
  | .int n => (Value.int n).unsigned?
  | .str s => Text.unsigned64? (Text.trim s)
  | _ => none

def ofOperator (r : KeyRule) (field op : String) (v : Value) : Except Fault Compiled :=
  let lowered := Text.lower (Text.trim op)
  let one (v : Value) : Value := r.storedValue field v
  let list : Value := .arr ((operandList v).map one)
  let operator (key : String) (v : Value) : Except Fault Compiled := .ok (operators [(key, v)])
  match lowered with
  | "=" | "eq" => .ok (equals (one v))
  | "<>" | "neq" | "ne" => operator "$ne" (one v)
  | ">" | "gt" => operator "$gt" (one v)
  | ">=" | "egt" | "gte" => operator "$gte" (one v)
  | "<" | "lt" => operator "$lt" (one v)
  | "<=" | "elt" | "lte" => operator "$lte" (one v)
  | "mod" => operator "$mod" (.arr (operandList v))
  | "in" => operator "$in" list
  | "not in" | "nin" => operator "$nin" list
  | "all" => operator "$all" list
  | "null" => .ok (equals .null)
  | "not null" | "notnull" => operator "$ne" .null
  | "exists" => operator "$exists" (.bool (isTruthy v))
  | "type" => operator "$type" v
  | "size" =>
    match lengthOperand? v with
    | some n => operator "$size" (.ofNat n)
    | none => .error (.query (.sizeValue v))
  | "between" =>
    (rangeBounds op v).map fun b => operators [("$gte", one b.1), ("$lte", one b.2)]
  | "not between" =>
    (rangeBounds op v).map fun b => operators [("$not", .obj [("$gte", one b.1), ("$lte", one b.2)])]
  | "like" | "regex" => .ok (operators [("$regex", v), ("$options", .str "i")])
  | "near" => operator "$near" v
  | "exp" => .ok (document (.obj [("$where", v)]))
  | _ =>
    if Text.startsWith lowered "$" then operator (Text.trim op) (one v)
    else .error (.query (.conditionOperator op))

/-- The operators that several pairs stand for together; a later one takes the place of an earlier one. -/
def ofPairs (r : KeyRule) (field stored : String) : List (String × Value) → Fields → Except Fault Fields
  | [], acc => .ok acc
  | (op, v) :: rest, acc => do
    match ← ofOperator r stored op v with
    | .equals v => ofPairs r field stored rest (Keyed.set acc "$eq" v)
    | .operators fs => ofPairs r field stored rest (Keyed.setAll acc fs)
    | .document _ => throw (.query (.uncombinable op field))

end Compiled

end DocQuery
