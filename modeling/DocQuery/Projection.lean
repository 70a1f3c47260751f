import DocQuery.Fault
import DocQuery.Value.Path

/-!
# Projections — which fields a row keeps

A projection names fields to keep, to leave out, to take from elsewhere or to fill with a fixed value.  If all it does
is leave out fields, everything else is kept; otherwise only what it names is kept, and the identifier unless it is
left out.
-/
namespace DocQuery

inductive FieldAction where
  | keep
  | leaveOut
  /-- takes the value at another path -/
  | take (path : String)
  | fill (v : Value)

/-- What is done with every field, in order. -/
abbrev Projection := List (String × FieldAction)

namespace Projection

/-- The action that a value stands for: `0` and `false` leave out, a text behind a dollar sign names a path. -/
def action : Value → FieldAction
  | .bool b => if b then .keep else .leaveOut
  | .int n => if Float.ofInt n == 0 then .leaveOut else .keep
  | .float x => if x == 0 then .leaveOut else .keep
  | .str s =>
    match Text.after? "$" s with
    | some path => .take path
    | none => .fill (.str s)
  | v => .fill v

def ofFields (fs : Fields) : Projection := fs.map fun e => (e.1, action e.2)

def ofValue (v : Value) : Except Fault Projection :=
  match v with
  | .obj fs => .ok (ofFields fs)
  | _ => .error (.query .projectShape)

def leavesOut (p : Projection) (key : String) : Bool :=
  match Keyed.get? p key with
  | some .leaveOut => true
  | _ => false

def isExclusion (p : Projection) : Bool :=
  p.all fun e => match e.2 with
    | .leaveOut => true
    | _ => false

def produce? (doc : Value) (field : String) : FieldAction → Option Value
  | .keep => doc.path? field
  | .take path => doc.path? path
  | .fill v => some v
  | .leaveOut => none

/-- The fields that a projection produces on top of those already there. -/
def produceAll (doc : Value) : Projection → Fields → Fields
  | [], acc => acc
  | (field, a) :: r, acc =>
    match produce? doc field a with
    | some v => produceAll doc r (Keyed.set acc field v)
    | none => produceAll doc r acc

def apply (p : Projection) (doc : Value) : Value :=
  match doc with
  | .obj fs =>
    if p.isExclusion then .obj (fs.filter fun e => !p.leavesOut e.1)
    else
      let id : Fields := if p.leavesOut "_id" then []
        else match Keyed.get? fs "_id" with
          | some v => [("_id", v)]
          | none => []
      .obj (produceAll doc p id)
  | _ => doc

end Projection

/-- A row with the fields that a projection document keeps; an empty one keeps all. -/
def Value.project (projection : Fields) (doc : Value) : Value :=
  if projection.isEmpty then doc else (Projection.ofFields projection).apply doc

end DocQuery
