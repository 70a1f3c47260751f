import DocQuery.Payload
import DocQuery.Pipeline
import DocQuery.Store

/-!
# Reading from the store

Finds and commands give rows.  Of the commands only `drop` changes the store.
-/
namespace DocQuery.Store

/-- The rows of a find: matching documents in order, within the window, with the fields that are wanted. -/
def find (s : Store) (ns : Namespace) (q : FindPayload) : Except Fault (List Value) := do
  let docs ← s.matching ns q.filter
  let rows := window q.options.limit q.options.skip ((q.options.sort.getD []).sort docs)
  return rows.map (Value.project (q.options.projection.getD []))

def commandTarget (database key : String) (c : Command) : Except Fault Namespace :=
  match (c.get? key).bind Value.str? with
  | some table => .ok (.resolve database table)
  | none => .error (.driver ⟨.invalidArgument, s!"{key} requires a collection name"⟩)

/-- The values at a path of a document: the items of an array, or the one value there. -/
def valuesAt (path : String) (doc : Value) : List Value :=
  match doc.path? path with
  | some (.arr xs) => xs
  | some v => [v]
  | none => []

/-- Values without those whose text was met before. -/
def distinctByText : List String → List Value → List Value
  | _, [] => []
  | seen, v :: r => if seen.contains v.text then distinctByText seen r else v :: distinctByText (v.text :: seen) r

def distinct (path : String) (docs : List Value) : List Value := distinctByText [] (docs.flatMap (valuesAt path))

def okRow (fs : Fields) : List Value := [.obj (fs ++ [("ok", .int 1)])]

def command (s : Store) (database : String) (c : Command) : Except Fault (Store × List Value) := do
  let query := Value.orNull (c.get? "query")
  match c.name with
  | "count" =>
    let docs ← s.matching (← commandTarget database "count" c) query
    let counted := window ((c.get? "limit").bind Value.unsigned?) ((c.get? "skip").bind Value.unsigned?) docs
    return (s, okRow [("n", .ofNat counted.length)])
  | "distinct" =>
    match (c.get? "key").bind Value.str? with
    | none => throw (.driver ⟨.invalidArgument, "distinct requires a key"⟩)
    | some path =>
      let docs ← s.matching (← commandTarget database "distinct" c) query
      return (s, okRow [("values", .arr (distinct path docs))])
  | "aggregate" =>
    let pipeline ← Pipeline.ofValue (Value.orNull (c.get? "pipeline"))
    let ns ← commandTarget database "aggregate" c
    return (s, pipeline.apply (s.documents ns))
  | "listCollections" =>
    return (s, (s.collectionNames database).map fun n => .obj [("name", .str n), ("type", .str "collection")])
  | "drop" =>
    let ns ← commandTarget database "drop" c
    return (s.drop ns, okRow [("ns", .str ns.text)])
  | "ping" => return (s, okRow [])
  | name => throw (.driver ⟨.runtime, s!"no such command: '{name}'"⟩)

end DocQuery.Store
