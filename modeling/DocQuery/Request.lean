import DocQuery.Concern
import DocQuery.Request.Where
import DocQuery.Run
import DocQuery.Text

/-!
# Requests — the description of one pending operation

Calls on a request add to it or overwrite parts of it; nothing is sent.  `finalize` fills in defaults and turns a page
into a window; finalizing twice is finalizing once.  Everything but the conditions is in `Scope`, which is what a
deferred predicate gets to see.
-/
namespace DocQuery

def updateOperators : List String :=
  ["$inc", "$set", "$unset", "$push", "$pushAll", "$addToSet", "$pop", "$pull", "$pullAll"]

/-- What a field of the data is assigned: a value, or an operator with its operand. -/
inductive Assignment where
  | plain (v : Value)
  | operator (op : String) (v : Value)

namespace Assignment

def increment (step : Int) : Assignment := operator "$inc" (.int step)

/-- The assignment that a loose value stands for: a pair with an operator in front, or the value itself. -/
def ofValue (v : Value) : Assignment :=
  match v with
  | .arr [.str op, operand] => if op = "exp" ∨ op ∈ updateOperators then operator op operand else plain v
  | _ => plain v

def toValue : Assignment → Value
  | plain v => v
  | operator op v => .arr [.str op, v]

end Assignment

inductive Selection where
  | all
  | fields (fs : Fields)

inductive FieldChoice where
  | all
  | names (names : List String)
  | computed (fs : List (String × Value))

def FieldChoice.ofText (s : String) : FieldChoice :=
  if Text.trim s = "*" then .all else .names (Text.splitList s)

def FieldChoice.ofNames (names : List String) : FieldChoice := .names (names.map Text.trim)

/-- A page of rows by its number, the first page being one. -/
structure Page where
  number : Int
  perPage : Int

structure CacheDirective where
  /-- the key to keep it under; one is derived from the query otherwise -/
  key : Option String := none
  /-- for how many milliseconds it is kept -/
  lifetime : Option Nat := none
  tag : Option String := none

/-- Settings of a read that the store gets to see as they are. -/
structure CursorFlags where
  tailable : Option Bool := none
  noCursorTimeout : Option Bool := none
  awaitData : Option Bool := none
  exhaust : Option Bool := none
  allowPartial : Option Bool := none
  oplogReplay : Option Bool := none
  slaveOk : Option Bool := none

/-- All of a request but its conditions. -/
structure Scope where
  table : Option String := none
  /-- the logical name of a table, from which its name is made -/
  name : Option String := none
  data : Keyed String Assignment := []
  selection : Option Selection := none
  sort : Keyed String Int := []
  skip : Option Nat := none
  limit : Option Nat := none
  page : Option Page := none
  rowShape : Option RowShape := none
  modifiers : Fields := []
  comment : Option String := none
  maxTime : Option Nat := none
  batchSize : Option Nat := none
  collation : Option Value := none
  hint : Option Value := none
  readPreference : Option ReadPreference := none
  writeConcern : Option WriteConcern := none
  flags : CursorFlags := {}
  /-- the fields that several aggregates are grouped by -/
  group : List String := []
  upsert : Option Bool := none
  /-- allows to delete without a condition -/
  force : Option Bool := none
  cache : Option CacheDirective := none
  fetchCursor : Option Bool := none
  master : Option Bool := none

/-- The description of one pending operation. -/
structure Request extends Scope where
  filter : Where (Condition Scope) := []

/-- A deferred predicate: the calls that stand in its place.  It is shown the scope of the request, and none of the
conditions that are filed on it. -/
abbrev Predicate := Scope → List (FilterCall Scope)

namespace Request

/-- Rows on a page when neither the page nor the limit tells. -/
def defaultPerPage : Nat := 20

def tableName (r : Request) : String := r.table.getD ""

def limitValue (r : Request) : Nat := r.limit.getD 0

def wantsMaster (r : Request) : Bool := r.master.getD false

/-- The selected fields; none means all. -/
def selectedFields (r : Request) : Fields :=
  match r.selection with
  | some (.fields fs) => fs
  | _ => []

def addFilter (r : Request) (call : FilterCall Scope) : Request := { r with filter := r.filter.add call }

def removeFilter (r : Request) (field : String) (logic : Logic) : Request :=
  { r with filter := r.filter.remove logic field }

def replaceGroup (r : Request) (logic : Logic) (g : Group (Condition Scope)) : Request :=
  { r with filter := Keyed.set r.filter logic g }

def setData (r : Request) (field : String) (a : Assignment) : Request := { r with data := Keyed.set r.data field a }

def mergeData (r : Request) (fs : Fields) : Request :=
  { r with data := Keyed.setAll r.data (fs.map fun e => (e.1, .ofValue e.2)) }

def increment (r : Request) (fields : String) (step : Int) : Request :=
  { r with data := Keyed.setAll r.data ((Text.splitList fields).map fun f => (f, .increment step)) }

def decrement (r : Request) (fields : String) (step : Int) : Request :=
  r.increment fields (Value.wrapped (-step))

def setLimit (r : Request) (offset length : Nat) : Request := { r with skip := some offset, limit := some length }

/-- Reads a window: a length, or an offset and a length with a comma between them. -/
def parseLimit (s : String) : Except Fault (Nat × Nat) :=
  match (Text.cut ',' s).map Text.trim with
  | [length] =>
    match Text.unsigned64? length with
    | some n => .ok (0, n)
    | none => .error (.query (.limitText s))
  | [offset, length] =>
    match Text.unsigned64? offset, Text.unsigned64? length with
    | some m, some n => .ok (m, n)
    | _, _ => .error (.query (.limitText s))
  | _ => .error (.query (.limitText s))

def setLimitText (r : Request) (s : String) : Except Fault Request :=
  (parseLimit s).map fun w => r.setLimit w.1 w.2

/-- Sets the window of a request in its place; a text that is none leaves the request as it is. -/
def limiting (s : String) : Run Request Unit := do
  let w ← liftM (parseLimit s)
  modify fun r => r.setLimit w.1 w.2

def setPage (r : Request) (number perPage : Int) : Request := { r with page := some ⟨number, perPage⟩ }

/-- Sorts by a field: `asc` in any case ascends, all else descends. -/
def orderBy (r : Request) (field direction : String) : Request :=
  { r with sort := Keyed.set r.sort field (if Text.sameIgnoringCase direction "asc" then 1 else -1) }

def replaceSort (r : Request) (keys : List (String × Int)) : Request := { r with sort := Keyed.ofList keys }

def select (r : Request) (choice : FieldChoice) (exclude : Bool) : Request :=
  let flag := Value.int (if exclude then 0 else 1)
  match choice with
  | .all => { r with selection := some .all }
  | .names names => { r with selection := some (.fields (Keyed.ofList (names.map fun n => (n, flag)))) }
  | .computed fs => { r with selection := some (.fields (Keyed.ofList fs)) }

/-- The comparison that data for a primary key stand for: an object gives its value of the key, or all its values to
choose from; arrays and comma lists are values to choose from. -/
def keyComparison (pk : String) : Value → Comparison
  | .obj fs =>
    match Keyed.get? fs pk with
    | some v => .eq v
    | none => .single "in" (.arr (fs.map Prod.snd))
  | .arr xs => .single "in" (.arr xs)
  | .str s => if Text.hasChar ',' s then .single "in" (.str s) else .eq (.str s)
  | v => .eq v

/-- Filters by a primary key.  The condition is all there is in its group afterwards. -/
def filterByKey (r : Request) (pk : String) (data : Value) : Request :=
  r.replaceGroup .and [(some pk, .plain (keyComparison pk data))]

def finalModifiers (r : Request) : Fields :=
  let fs := match r.comment with
    | some c => Keyed.set r.modifiers "$comment" (.str c)
    | none => r.modifiers
  match r.maxTime with
  | some ms => Keyed.set fs "$maxTimeMS" (.ofNat ms)
  | none => fs

/-- The rows on a page: what the page tells, else the limit, else a default. -/
def perPage (r : Request) (page : Page) : Nat :=
  if 0 < page.perPage then page.perPage.toNat else if 0 < r.limitValue then r.limitValue else defaultPerPage

/-- The window of a page.  The number of skipped rows does not grow beyond 64 bits. -/
def pageWindow (r : Request) : Option Nat × Option Nat :=
  match r.page with
  | some page =>
    let size := r.perPage page
    (some (min (size * ((max page.number 1).toNat - 1)) (Nat.pow 2 64 - 1)), some size)
  | none => (r.skip, some r.limitValue)

def finalize (r : Request) (defaultTable : String) (defaultShape : RowShape) : Request :=
  { r with
    table := some (r.table.getD defaultTable)
    modifiers := r.finalModifiers
    selection := some (.fields r.selectedFields)
    rowShape := some (r.rowShape.getD defaultShape)
    master := some (r.master.getD false)
    fetchCursor := some (r.fetchCursor.getD false)
    skip := r.pageWindow.1
    limit := r.pageWindow.2 }

end Request

end DocQuery
