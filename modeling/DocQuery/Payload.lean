import DocQuery.Fault
import DocQuery.Namespace
import DocQuery.ObjectId
import DocQuery.Sort
import DocQuery.Value.Text

/-!
# Payloads — what the store is asked

Finds, bulk writes and commands as they are handed to the store, and the statements by which they are logged.
-/
namespace DocQuery

/-!
## Finds

A filter document with options for the rows that it finds, as they are handed to the store.
-/

/-- Options of a find.  A limit of zero is none. -/
structure FindOptions where
  projection : Option Fields := none
  sort : Option SortKeys := none
  limit : Option Nat := none
  skip : Option Nat := none
  batchSize : Option Nat := none
  collation : Option Value := none
  hint : Option Value := none
  modifiers : Fields := []
  tailable : Bool := false
  noCursorTimeout : Bool := false
  awaitData : Bool := false
  exhaust : Bool := false
  allowPartial : Bool := false
  oplogReplay : Bool := false
  slaveOk : Bool := false

namespace FindOptions

def optional {α : Type} (key : String) (v : Option α) (write : α → Value) : Fields :=
  match v with
  | some x => [(key, write x)]
  | none => []

def flagged (key : String) (on : Bool) : Fields := if on then [(key, .bool true)] else []

def projectionOrNone (o : FindOptions) : Option Fields := o.projection.filter fun fs => !fs.isEmpty

def sortOrNone (o : FindOptions) : Option SortKeys := o.sort.filter fun keys => !keys.isEmpty

def toValue (o : FindOptions) : Value :=
  .obj <|
    optional "projection" o.projectionOrNone .obj ++
    optional "sort" o.sortOrNone SortKeys.toValue ++
    optional "skip" o.skip .ofNat ++
    optional "limit" o.limit .ofNat ++
    optional "batchSize" o.batchSize .ofNat ++
    optional "collation" o.collation id ++
    optional "hint" o.hint id ++
    optional "modifiers" (if o.modifiers.isEmpty then none else some o.modifiers) .obj ++
    flagged "tailable" o.tailable ++
    flagged "noCursorTimeout" o.noCursorTimeout ++
    flagged "awaitData" o.awaitData ++
    flagged "exhaust" o.exhaust ++
    flagged "allowPartialResults" o.allowPartial ++
    flagged "oplogReplay" o.oplogReplay ++
    flagged "slaveOk" o.slaveOk

end FindOptions

structure FindPayload where
  filter : Value
  options : FindOptions

/-!
## Bulk writes

An ordered list of writes that are submitted together, and the counters that come back.
-/

inductive WriteModel where
  | insert (document : Value)
  /-- with `multi` every match is updated, otherwise the first; with `upsert` a document is made if none matches -/
  | update (filter change : Value) (multi upsert : Bool)
  /-- a limit of one removes the first match, any other every match -/
  | delete (filter : Value) (limit : Nat)

abbrev BulkWrite := List WriteModel

/-- Where made up identifiers come from: a sequence, and the place in it. -/
structure IdSupply where
  draw : Nat → ObjectId
  next : Nat := 0

namespace IdSupply

def take (s : IdSupply) : ObjectId × IdSupply := (s.draw s.next, { s with next := s.next + 1 })

end IdSupply

namespace WriteModel

/-- The insertion of a document, and the identifier it will have.  A document without one gets the next of the
supply. -/
def forDocument (supply : IdSupply) (document : Value) : WriteModel × Option DocumentId × IdSupply :=
  match document with
  | .obj fs =>
    match Keyed.get? fs "_id" with
    | some id => (insert document, DocumentId.ofValue? id, supply)
    | none =>
      let (id, supply) := supply.take
      (insert (.obj (Keyed.set fs "_id" id.toValue)), some (.native id), supply)
  | _ => (insert document, none, supply)

def forDocuments : IdSupply → List Value → BulkWrite × List DocumentId × IdSupply
  | supply, [] => ([], [], supply)
  | supply, d :: ds =>
    let (w, id, supply) := forDocument supply d
    let (ws, ids, supply) := forDocuments supply ds
    (w :: ws, id.toList ++ ids, supply)

end WriteModel

structure WriteResult where
  matched : Nat := 0
  modified : Nat := 0
  inserted : Nat := 0
  deleted : Nat := 0
  upserted : Nat := 0
  insertedIds : List DocumentId := []

/-!
## Commands

A command is a document with at least one field; the key of the first field is its name.
-/

structure Command where
  fields : Fields
  fields_ne_nil : fields ≠ []

namespace Command

def ofValue (v : Value) : Except Fault Command :=
  match v with
  | .obj (e :: r) => .ok ⟨e :: r, List.cons_ne_nil e r⟩
  | _ => .error (.query (.commandShape v))

def name (c : Command) : String := (c.fields.head c.fields_ne_nil).1

def get? (c : Command) (key : String) : Option Value := Keyed.get? c.fields key

def toValue (c : Command) : Value := .obj c.fields

def build (name : String) (argument : Value) (more : Fields) : Command :=
  ⟨(name, argument) :: more, List.cons_ne_nil _ _⟩

end Command

/-!
## Statements — payloads as one would type them

The text of a payload in the manner of an interactive shell, with identifiers as plain text.
-/

def Value.plainText (v : Value) : String := v.flattenIds.text

/-- A call behind a statement, if there is something to pass. -/
def statementCall {α : Type} (name : String) (v : Option α) (write : α → String) : String :=
  match v with
  | some x => "." ++ name ++ "(" ++ write x ++ ")"
  | none => ""

def FindPayload.statement (ns : Namespace) (q : FindPayload) : String :=
  let o := q.options
  let projection := match o.projectionOrNone with
    | some fs => ", " ++ (Value.obj fs).text
    | none => ""
  ns.text ++ ".find(" ++ q.filter.plainText ++ projection ++ ")" ++
    statementCall "sort" o.sortOrNone (fun keys => keys.toValue.text) ++
    statementCall "skip" (o.skip.filter (0 < ·)) toString ++
    statementCall "limit" (o.limit.filter (0 < ·)) toString ++ ";"

namespace BulkWrite

def documents (b : BulkWrite) : List Value :=
  b.filterMap fun w => match w with
    | .insert d => some d
    | _ => none

def modelStatement? (ns : Namespace) : WriteModel → Option String
  | .insert _ => none
  | .update filter change _ _ =>
    some (ns.text ++ ".update(" ++ filter.plainText ++ "," ++ change.plainText ++ ");")
  | .delete filter _ => some (ns.text ++ ".remove(" ++ filter.plainText ++ ");")

/-- The statements of a bulk write: all insertions in one, then the others in order. -/
def statement (ns : Namespace) (b : BulkWrite) : String :=
  let inserts := match b.documents with
    | [] => []
    | [d] => [ns.text ++ ".insert(" ++ d.plainText ++ ");"]
    | ds => [ns.text ++ ".insert(" ++ (Value.arr (ds.map Value.flattenIds)).text ++ ");"]
  Text.join " " (inserts ++ b.filterMap (modelStatement? ns))

end BulkWrite

def Command.statement (database : String) (c : Command) : String :=
  let call := if c.name = "aggregate" then "runCommand" else c.name
  database ++ "." ++ call ++ "(" ++ c.toValue.plainText ++ ");"

end DocQuery
