import DocQuery.Filter.Reader
import DocQuery.Pipeline.Group
import DocQuery.Projection
import DocQuery.Sort

/-!
# Pipelines — documents through stages

Each stage turns a list of documents into another one.  Reading a pipeline refuses what a stage cannot do; running one
always gives rows.
-/
namespace DocQuery

inductive Stage where
  | select (f : Filter)
  | project (p : Projection)
  | group (g : Grouping)
  | sort (keys : SortKeys)
  | limit (n : Nat)
  | skip (n : Nat)

/-- Stages in the order in which they run. -/
abbrev Pipeline := List Stage

namespace Stage

def sortKeys : List (String × Value) → Except Fault SortKeys
  | [] => .ok []
  | (field, v) :: r =>
    match v.signed? with
    | some d => if d = 1 ∨ d = -1 then (sortKeys r).map ((field, d) :: ·) else .error (.query .sortDirection)
    | none => .error (.query .sortDirection)

def ofValue (v : Value) : Except Fault Stage := do
  let (name, spec) ← onlyEntry "Stage" v
  match name with
  | "$match" => (Filter.ofValue spec).map select
  | "$project" => (Projection.ofValue spec).map project
  | "$group" => (Grouping.ofValue spec).map group
  | "$sort" =>
    match spec with
    | .obj fs => (sortKeys fs).map sort
    | _ => throw (.query .sortShape)
  | "$limit" =>
    match spec.unsigned? with
    | some n => return limit n
    | none => throw (.query .limitCount)
  | "$skip" =>
    match spec.unsigned? with
    | some n => return skip n
    | none => throw (.query .skipCount)
  | _ => throw (.query (.stage name))

def apply (docs : List Value) : Stage → List Value
  | select f => docs.filter f.holds
  | project p => docs.map p.apply
  | group g => g.apply docs
  | sort keys => keys.sort docs
  | limit n => docs.take n
  | skip n => docs.drop n

end Stage

namespace Pipeline

def ofValue : Value → Except Fault Pipeline
  | .arr stages => stages.mapM Stage.ofValue
  | _ => .error (.query .pipelineShape)

def apply (p : Pipeline) (docs : List Value) : List Value := p.foldl Stage.apply docs

end Pipeline

end DocQuery
