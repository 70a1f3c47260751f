import DocQuery.Decimal
import DocQuery.Fault
import DocQuery.Value.Order
import DocQuery.Value.Text
import DocQuery.Value.Path

/-!
# Grouping

Documents with the same key form a group; groups stand in the order in which their keys were first met, and each gives
one row with its key and what the accumulators make of its documents.
-/
namespace DocQuery

inductive GroupKey where
  | all
  | path (path : String)
  | paths (parts : List (String × String))

inductive Accumulator where
  /-- a number for every document -/
  | count (step : Float)
  | sum (path : String)
  | avg (path : String)
  | min (path : String)
  | max (path : String)
  | first (path : String)
  | last (path : String)

structure Grouping where
  key : GroupKey
  accumulators : List (String × Accumulator)

/-- The path that a reference names: a text behind dollar signs. -/
def pathReference (what : String) : Value → Except Fault String
  | .str s => if Text.startsWith s "$" then .ok (Text.dropLeading '$' s) else .error (.query (.fieldReference what))
  | _ => .error (.query (.fieldReference what))

def onlyEntry (what : String) : Value → Except Fault (String × Value)
  | .obj [e] => .ok e
  | _ => .error (.query (.oneOperator what))

namespace GroupKey

def ofParts : List (String × Value) → Except Fault (List (String × String))
  | [] => .ok []
  | (name, v) :: r => do
    let path ← pathReference "Group _id" v
    return (name, path) :: (← ofParts r)

def ofValue : Option Value → Except Fault GroupKey
  | some .null => .ok .all
  | some (.str s) => (pathReference "Group _id" (.str s)).map path
  | some (.obj parts) => (ofParts parts).map paths
  | some _ => .error (.query .groupKeyShape)
  | none => .error (.query .groupKeyMissing)

/-- The key of a document; what is missing is `null`. -/
def ofDocument (k : GroupKey) (doc : Value) : Value :=
  match k with
  | all => .null
  | path p => Value.orNull (doc.path? p)
  | paths parts => .obj (Keyed.ofList (parts.map fun e => (e.1, Value.orNull (doc.path? e.2))))

end GroupKey

namespace Accumulator

def ofValue (v : Value) : Except Fault Accumulator := do
  let (op, operand) ← onlyEntry "Accumulator" v
  match op with
  | "$sum" =>
    match operand.number? with
    | some x => return count x
    | none => (pathReference op operand).map sum
  | "$avg" => (pathReference op operand).map avg
  | "$min" => (pathReference op operand).map min
  | "$max" => (pathReference op operand).map max
  | "$first" => (pathReference op operand).map first
  | "$last" => (pathReference op operand).map last
  | _ => throw (.query (.accumulator op))

/-- The whole number that a float is, if it is one below `2^63`. -/
def wholeNumber? (x : Float) : Option Int :=
  let (m, e) := Decimal.magnitude x
  let divides := 0 ≤ e || m % Nat.pow 2 (-e).toNat == 0
  let n : Nat := if 0 ≤ e then m * Nat.pow 2 e.toNat else m / Nat.pow 2 (-e).toNat
  if x.isFinite && divides && n < Nat.pow 2 63 then some (if x < 0 then -(n : Int) else n) else none

/-- A computed number as a value: whole numbers stay whole. -/
def ofNumber (x : Float) : Value :=
  match wholeNumber? x with
  | some n => .int n
  | none => Value.ofFloat x

/-- The numbers at a path, without what is missing or no number. -/
def numbers (path : String) (docs : List Value) : List Float :=
  docs.filterMap fun d => (d.path? path).bind Value.number?

def total (xs : List Float) : Float := xs.foldl (· + ·) 0

/-- The first of the values that no later one beats: a value is beaten by one in the wanted order to it. -/
def extreme (wanted : Ordering) : Option Value → List Value → Option Value
  | best, [] => best
  | none, v :: r => extreme wanted (some v) r
  | some best, v :: r => extreme wanted (some (if v.order? best = some wanted then v else best)) r

def present (path : String) (docs : List Value) : List Value :=
  (docs.filterMap (·.path? path)).filter fun v => !v.isNull

def compute (a : Accumulator) (docs : List Value) : Value :=
  match a with
  | count step => ofNumber (step * Float.ofNat docs.length)
  | sum path => ofNumber (total (numbers path docs))
  | avg path =>
    let xs := numbers path docs
    if xs.isEmpty then .null else Value.ofFloat (total xs / Float.ofNat xs.length)
  | min path => Value.orNull (extreme .lt none (present path docs))
  | max path => Value.orNull (extreme .gt none (present path docs))
  | first path => Value.orNull (docs.head?.bind (·.path? path))
  | last path => Value.orNull (docs.getLast?.bind (·.path? path))

end Accumulator

namespace Grouping

def accumulatorsOf : List (String × Value) → Except Fault (List (String × Accumulator))
  | [] => .ok []
  | (field, v) :: r =>
    if field = "_id" then accumulatorsOf r
    else do
      let a ← Accumulator.ofValue v
      return (field, a) :: (← accumulatorsOf r)

def ofValue : Value → Except Fault Grouping
  | .obj fs => do
    let key ← GroupKey.ofValue (Keyed.get? fs "_id")
    return { key := key, accumulators := ← accumulatorsOf fs }
  | _ => .error (.query .groupShape)

def file (g : Grouping) (groups : Keyed String (Value × List Value)) (doc : Value) :
    Keyed String (Value × List Value) :=
  let key := g.key.ofDocument doc
  match Keyed.get? groups key.text with
  | some (k, docs) => Keyed.set groups key.text (k, docs ++ [doc])
  | none => Keyed.set groups key.text (key, [doc])

/-- The groups under the texts of their keys, in the order of first appearance. -/
def groups (g : Grouping) (docs : List Value) : Keyed String (Value × List Value) := docs.foldl g.file []

def row (g : Grouping) (key : Value) (docs : List Value) : Value :=
  .obj (Keyed.setAll [("_id", key)] (g.accumulators.map fun e => (e.1, e.2.compute docs)))

def apply (g : Grouping) (docs : List Value) : List Value := (g.groups docs).map fun e => g.row e.2.1 e.2.2

end Grouping

end DocQuery
