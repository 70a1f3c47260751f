import DocQuery.Compile.Data
import DocQuery.Compile.Filter
import DocQuery.Payload

/-!
# Compiling requests to payloads

A finalized request becomes a find, a bulk write or a command.
-/
namespace DocQuery.KeyRule

def findOptions (r : KeyRule) (q : Request) (one : Bool) : FindOptions :=
  { projection := some (Keyed.ofList (q.selectedFields.map fun e => (r.storedName e.1, e.2)))
    sort := some (q.sort.map fun e => (r.storedName e.1, e.2))
    limit := some (if one then 1 else q.limitValue)
    skip := q.skip
    batchSize := q.batchSize
    collation := q.collation
    hint := q.hint
    modifiers := q.modifiers
    tailable := q.flags.tailable.getD false
    noCursorTimeout := q.flags.noCursorTimeout.getD false
    awaitData := q.flags.awaitData.getD false
    exhaust := q.flags.exhaust.getD false
    allowPartial := q.flags.allowPartial.getD false
    oplogReplay := q.flags.oplogReplay.getD false
    slaveOk := q.flags.slaveOk.getD false }

/-- A find; with `one` it gives a single row at most. -/
def find (r : KeyRule) (q : Request) (one : Bool) : Except Fault FindPayload := do
  let filter ← r.compileFilter q
  return { filter := .obj filter, options := r.findOptions q one }

def insertion (r : KeyRule) (q : Request) (supply : IdSupply) : BulkWrite × Option DocumentId × IdSupply :=
  let (w, id, supply) := WriteModel.forDocument supply (.obj (r.document q.data))
  ([w], id, supply)

/-- The insertions of rows, each on top of the data. -/
def insertions (r : KeyRule) (q : Request) (rows : List Fields) (supply : IdSupply) :
    BulkWrite × List DocumentId × IdSupply :=
  WriteModel.forDocuments supply (rows.map fun row => .obj (r.document (q.mergeData row).data))

/-- The update of what is found by the data; a limit of one updates the first match only. -/
def update (r : KeyRule) (q : Request) : Except Fault BulkWrite := do
  let filter ← r.compileFilter q
  let change ← r.change q.data
  return [.update (.obj filter) (.obj change) (q.limitValue != 1) (q.upsert.getD false)]

/-- The deletion of what is found; a limit of one deletes the first match only. -/
def deletion (r : KeyRule) (q : Request) : Except Fault BulkWrite := do
  let filter ← r.compileFilter q
  return [.delete (.obj filter) (if q.limitValue = 1 then 1 else 0)]

def timeLimit (q : Request) : Fields := FindOptions.optional "maxTimeMS" q.maxTime .ofNat

/-- The command that counts what is found, within the window. -/
def countCommand (r : KeyRule) (q : Request) : Except Fault Command := do
  let filter ← r.compileFilter q
  return .build "count" (.str q.tableName) <|
    [("query", .obj filter)] ++ FindOptions.optional "hint" q.hint id ++
    FindOptions.optional "skip" (q.skip.filter (0 < ·)) .ofNat ++
    FindOptions.optional "limit" ((some q.limitValue).filter (0 < ·)) .ofNat ++ timeLimit q

def groupCommand (r : KeyRule) (q : Request) (group : Value) (reshape : Option Value) : Except Fault Command := do
  let filter ← r.compileFilter q
  let stages := (if filter.isEmpty then [] else [Value.single "$match" (.obj filter)]) ++
    [Value.single "$group" group] ++ (reshape.map (Value.single "$project")).toList
  return .build "aggregate" (.str q.tableName) <|
    [("allowDiskUse", .bool true), ("pipeline", .arr stages), ("cursor", .obj [])] ++
    FindOptions.optional "collation" q.collation id

/-- The name of an accumulator: without blanks and dollar signs, in lower case. -/
def accumulatorName (op : String) : String := Text.lower (Text.dropLeading '$' (Text.trim op))

def accumulator (r : KeyRule) (op field : String) : Value :=
  Value.single ("$" ++ op) (.str ("$" ++ r.storedName field))

def aggregateCommand (r : KeyRule) (q : Request) (op field : String) : Except Fault Command :=
  let op := accumulatorName op
  if op = "" then .error (.query .noAggregate)
  else r.groupCommand q (.obj [("_id", .null), ("aggregate", r.accumulator op field)])
    (some (.obj [("_id", .int 0), ("aggregate", .int 1)]))

def multiAggregateCommand (r : KeyRule) (q : Request) (aggregates : List (String × String)) (groupBy : List String) :
    Except Fault Command :=
  let id := Keyed.ofList (groupBy.map fun f => (r.storedName f, Value.str ("$" ++ r.storedName f)))
  let results := aggregates.map fun a =>
    (a.2 ++ "_" ++ accumulatorName a.1, r.accumulator (accumulatorName a.1) a.2)
  r.groupCommand q (.obj (Keyed.setAll [("_id", Value.obj id)] results)) none

def distinctCommand (r : KeyRule) (q : Request) (field : String) : Except Fault Command := do
  let filter ← r.compileFilter q
  return .build "distinct" (.str q.tableName) <|
    [("key", .str (r.storedName field)), ("query", .obj filter)] ++ timeLimit q

def listCommand : Command := .build "listCollections" (.int 1) []

end DocQuery.KeyRule
