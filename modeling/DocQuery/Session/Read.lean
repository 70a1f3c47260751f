import DocQuery.Session

/-!
# Reading through a session

The operations take a finalized request.
-/
namespace DocQuery.Session

variable {σ : Type}

def compiled {α : Type} (compile : KeyRule → Except Fault α) : Run (Session σ) α := do
  let s ← get
  compile s.keyRule

def rowsOf : Value → List Value
  | .arr rows => rows
  | v => [v]

def present : Value → Option Value
  | .null => none
  | v => some v

def select (q : Request) : Run (Session σ) (List Value) := do
  match ← trigger .beforeSelect q none with
  | some v => return rowsOf v
  | none =>
    let p ← compiled (·.find q false)
    let v ← cached q "select" p.toValue do return .arr (← fetch q p)
    return rowsOf v

def find (q : Request) : Run (Session σ) (Option Value) := do
  match ← trigger .beforeFind q none with
  | some v => return some v
  | none =>
    let p ← compiled (·.find q true)
    let v ← cached q "find" p.toValue do return (← fetch q p).headD .null
    return present v

def valueAt (path : String) (row : Value) : Value := Value.orNull (row.path? path)

def value (q : Request) (field : String) : Run (Session σ) (Option Value) := do
  let q := q.select (.ofNames [field]) false
  let p ← compiled (·.find q true)
  let v ← cached q "value" p.toValue do return (((← fetch q p).head?).map (valueAt field)).getD .null
  return present v

def keyText : Value → String
  | .str s => s
  | v => v.text

def isWhole (field : String) : Bool := Text.trim field == "*" || Text.hasChar ',' field

def columnFields (field key : String) : String :=
  if key ≠ "" ∧ Text.trim field ≠ "*" then key ++ "," ++ field else field

/-- A column of rows: the values at a path, or, with a key, an object of them under the values at the key. -/
def columnOf (field key : String) (rows : List Value) : Value :=
  if key = "" then .arr (rows.map (valueAt field))
  else .obj (Keyed.ofList (rows.map fun row =>
    (keyText (valueAt key row), if isWhole field then row else valueAt field row)))

def column (q : Request) (field key : String) : Run (Session σ) Value := do
  let q := q.select (.ofText (columnFields field key)) false
  let p ← compiled (·.find q false)
  cached q "column" p.toValue do return columnOf field key (← fetch q p)

def cursor (q : Request) : Run (Session σ) (List Value) := do
  let p ← compiled (·.find q false)
  openRows q p

def run (q : Request) (document : Value) (database : Option String) : Run (Session σ) (List Value) := do
  let c ← (Command.ofValue document : Except Fault Command)
  command q c database

/-- The number that a value counts: whole, not negative, within 64 bits.  Up to `2^53` it is exact, beyond that it is
the float next to it. -/
def countOf : Value → Nat
  | .int n => if n ≤ Int.pow 2 53 then n.toNat else (Float.ofInt n).toUInt64.toNat
  | .float x => x.toUInt64.toNat
  | _ => 0

def count (q : Request) : Run (Session σ) Nat := do
  let c ← compiled (·.countCommand q)
  let v ← cached q "count" c.toValue do
    return (((← command q c none).head?).bind (·.field? "n")).getD (.int 0)
  return countOf v

/-- The value that an aggregation gives: in the first row, or in a result inside it. -/
def aggregateOf (rows : List Value) : Value :=
  match (rows.head?).bind (·.field? "aggregate") with
  | some v => v
  | none => ((rows.head?).bind (·.path? "result.0.aggregate")).getD (.int 0)

/-- All documents reduced to one value; zero if there are none. -/
def aggregate (q : Request) (op field : String) : Run (Session σ) Value := do
  let c ← compiled (·.aggregateCommand q op field)
  cached q "aggregate" c.toValue do return aggregateOf (← command q c none)

/-- A row with the fields of its group key among the others. -/
def liftKey (row : Value) : Value :=
  match row with
  | .obj fs =>
    match Keyed.get? fs "_id" with
    | some (.obj key) => .obj (Keyed.setAll (Keyed.swapErase fs "_id") key)
    | some _ => .obj (Keyed.swapErase fs "_id")
    | none => row
  | _ => row

def multiAggregate (q : Request) (aggregates : List (String × String)) (groupBy : List String) :
    Run (Session σ) (List Value) := do
  let c ← compiled (·.multiAggregateCommand q aggregates groupBy)
  return (← command q c none).map liftKey

def distinct (q : Request) (field : String) : Run (Session σ) (List Value) := do
  let c ← compiled (·.distinctCommand q field)
  return (((← command q c none).head?).bind (·.field? "values")).bind Value.items? |>.getD []

/-- The names of the collections of a database.  The request need not be finalized. -/
def collections (q : Request) (database : Option String) : Run (Session σ) (List String) := do
  let rows ← command q KeyRule.listCommand database
  return rows.filterMap fun row => (row.field? "name").bind Value.str?

end DocQuery.Session
