import DocQuery.Session.Read
import DocQuery.Session.Write

/-!
# Queries — a session with a pending request

Operations finalize the request in its place and carry it out.  What they do to the request stays done when they fail.
-/
namespace DocQuery

structure Query (σ : Type) where
  session : Session σ
  request : Request

namespace Query

variable {σ α : Type}

def sessioned (m : Run (Session σ) α) : Run (Query σ) α := m.within Query.session fun s q => { q with session := s }

def setRequest (r : Request) : Run (Query σ) Unit := modify fun q => { q with request := r }

def finalize : Run (Query σ) Request := do
  let q ← get
  let r := q.session.finalize q.request
  setRequest r
  return r

def finalized (op : Request → Run (Session σ) α) : Run (Query σ) α := do sessioned (op (← finalize))

def primaryKey (q : Query σ) : String := q.session.primaryKeyFor q.request

def byKey (q : Query σ) (data : Value) : Request := q.request.filterByKey q.primaryKey data

def select : Run (Query σ) (List Value) := finalized Session.select

def find : Run (Query σ) (Option Value) := finalized Session.find

def value (field : String) (default : Value) : Run (Query σ) Value := do
  return (← finalized (Session.value · field)).getD default

def column (field key : String) : Run (Query σ) Value := finalized (Session.column · field key)

def cursor : Run (Query σ) (List Value) := do
  let r := { ← finalize with fetchCursor := some true }
  setRequest r
  sessioned (Session.cursor r)

def count : Run (Query σ) Nat := finalized Session.count

def aggregate (op field : String) : Run (Query σ) Value := finalized (Session.aggregate · op field)

/-- All documents reduced to several values for each group, by the fields given or else those of the request. -/
def multiAggregate (aggregates : List (String × String)) (groupBy : List String) : Run (Query σ) (List Value) := do
  let q ← get
  finalized (Session.multiAggregate · aggregates (if groupBy.isEmpty then q.request.group else groupBy))

def distinct (field : String) : Run (Query σ) (List Value) := finalized (Session.distinct · field)

def collections (database : Option String) : Run (Query σ) (List String) := do
  sessioned (Session.collections (← get).request database)

def run (document : Value) (database : Option String) : Run (Query σ) (List Value) :=
  finalized (Session.run · document database)

def mergeData (fs : Fields) : Run (Query σ) Unit := modify fun q => { q with request := q.request.mergeData fs }

/-- Inserts the data with some more: how many documents were inserted, and their identifier. -/
def insert (fs : Fields) : Run (Query σ) (Nat × Option Value) := do
  mergeData fs
  let (n, id, r) ← finalized Session.insert
  setRequest r
  return (n, id)

def insertAll (rows : List Fields) : Run (Query σ) Nat := finalized (Session.insertAll · rows)

def update (fs : Fields) : Run (Query σ) Nat := do
  mergeData fs
  finalized Session.update

/-- Deletes what is found.  Data are a primary key to filter by, but `true` forces the deletion. -/
def delete (data : Option Value) : Run (Query σ) Nat := do
  let q ← get
  match data with
  | some (.bool true) => setRequest { q.request with force := some true }
  | none | some .null => pure ()
  | some v => setRequest (q.byKey v)
  finalized Session.delete

def setField (field : String) (v : Value) : Run (Query σ) Nat := do
  modify fun q => { q with request := q.request.setData field (.ofValue v) }
  finalized Session.update

/-- Adds a step to a field of what is found.  With a window the step is buffered, and nothing is written before the
window has passed. -/
def increment (field : String) (step : Int) (window : Option Nat) : Run (Query σ) (Option Nat) := do
  if (← get).request.filter.isEmpty then throw (.precondition .counterCondition)
  let r ← finalize
  let write (step : Int) : Run (Query σ) (Option Nat) := do
    setRequest (r.increment field step)
    return some (← finalized Session.update)
  match window.filter (0 < ·) with
  | none => write step
  | some window =>
    match ← sessioned (Session.accumulate r field step window) with
    | .buffered => return none
    | .flush total => write total

def decrement (field : String) (step : Int) (window : Option Nat) : Run (Query σ) (Option Nat) :=
  increment field (Value.wrapped (-step)) window

end Query

end DocQuery
