import DocQuery.Query

/-!
# Walking through a result

The rows are read batch by batch, in the order of a column; each batch begins behind the last value of the one before.
A visitor sees every batch and tells whether it wants more.
-/
namespace DocQuery

structure Walk (σ β : Type) where
  query : Query σ
  memory : β

/-- What looks at a batch of rows: what it remembers from then on, and whether it wants more. -/
abbrev Visitor (β : Type) := List Value → β → β × Bool

namespace Walk

variable {σ β α : Type}

def queried (m : Run (Query σ) α) : Run (Walk σ β) α := m.within Walk.query fun q w => { w with query := q }

def firstBatch (r : Request) (size : Nat) (column : String) : Request := (r.setLimit 0 size).orderBy column "asc"

def nextBatch (r : Request) (size : Nat) (column : String) (last : Value) : Request :=
  ((r.setLimit 0 size).addFilter (.name .and column (some (.str ">")) (some last))).orderBy column "asc"

def visit (visitor : Visitor β) (rows : List Value) : Run (Walk σ β) Bool :=
  .of fun w =>
    let (memory, more) := visitor rows w.memory
    (.ok more, { w with memory := memory })

def lastOf (column : String) (rows : List Value) : Value := Value.orNull ((rows.getLast?).bind (·.field? column))

/-- Walks on with a batch of rows, for so many batches: whether the end was reached, or `none` if it was not in sight.
The request is that of the start again at the end. -/
def batches (visitor : Visitor β) (base : Request) (size : Nat) (column : String) :
    Nat → List Value → Run (Walk σ β) (Option Bool)
  | 0, _ => return none
  | n + 1, rows => do
    if rows.isEmpty then
      queried (Query.setRequest base)
      return some true
    let more ← visit visitor rows
    if !more then
      queried (Query.setRequest base)
      return some false
    match lastOf column rows with
    | .null =>
      queried (Query.setRequest base)
      return some true
    | last =>
      queried (Query.setRequest (nextBatch base size column last))
      batches visitor base size column n (← queried Query.select)

/-- Walks through the result in batches of a size, by a column or else the primary key.  No more than `bound` batches
are looked at; `none` tells that the bound was met. -/
def chunks (visitor : Visitor β) (size : Nat) (column : Option String) (bound : Nat) :
    Run (Walk σ β) (Option Bool) := do
  if size = 0 then throw (.query .chunkSize)
  let q := (← get).query
  let column := column.getD q.primaryKey
  queried (Query.setRequest (firstBatch q.request size column))
  batches visitor q.request size column bound (← queried Query.select)

end Walk

end DocQuery
