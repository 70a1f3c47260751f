import DocQuery.Request

/-!
# Settings of a request by name

Callers that hold a request as data name its settings by text and give their values.  A value of the wrong kind is a
fault of serialization.
-/
namespace DocQuery.Request

def decoded {α : Type} (v : Option α) : Except Fault α :=
  match v with
  | some a => .ok a
  | none => .error .serialization

/-- Reads how a result is cached; a lifetime is given in seconds. -/
def directiveOf? (v : Value) : Option CacheDirective := do
  let fs ← v.fields?
  return { key := ← Value.optionalField fs "key" Value.str?
           lifetime := (← Value.optionalField fs "ttl" Value.unsigned?).map (· * 1000)
           tag := ← Value.optionalField fs "tag" Value.str? }

def setFlag? (r : Request) (name : String) (on : Bool) : Option Request :=
  match name with
  | "tailable" => some { r with flags := { r.flags with tailable := some on } }
  | "no_cursor_timeout" => some { r with flags := { r.flags with noCursorTimeout := some on } }
  | "await_data" => some { r with flags := { r.flags with awaitData := some on } }
  | "exhaust" => some { r with flags := { r.flags with exhaust := some on } }
  | "partial" => some { r with flags := { r.flags with allowPartial := some on } }
  | "oplog_replay" => some { r with flags := { r.flags with oplogReplay := some on } }
  | "slave_ok" => some { r with flags := { r.flags with slaveOk := some on } }
  | "upsert" => some { r with upsert := some on }
  | "force" => some { r with force := some on }
  | "fetch_cursor" => some { r with fetchCursor := some on }
  | "master" => some { r with master := some on }
  | _ => none

/-- A setting by its name; one that is not known is a fault. -/
def setNamed (r : Request) (name : String) (v : Value) : Except Fault Request :=
  match name with
  | "table" => (decoded v.str?).map fun s => { r with table := some s }
  | "name" => (decoded v.str?).map fun s => { r with name := some s }
  | "comment" => (decoded v.str?).map fun s => { r with comment := some s }
  | "skip" => (decoded v.unsigned?).map fun n => { r with skip := some n }
  | "max_time_ms" => (decoded v.unsigned?).map fun n => { r with maxTime := some n }
  | "batch_size" => (decoded v.unsigned?).map fun n => { r with batchSize := some n }
  | "collation" => .ok { r with collation := some v }
  | "hint" => .ok { r with hint := some v }
  | "modifiers" => (decoded v.fields?).map fun fs => { r with modifiers := fs }
  | "type_map" => (decoded (RowShape.ofValue? v)).map fun s => { r with rowShape := some s }
  | "read_preference" => (decoded (ReadPreference.ofValue? v)).map fun p => { r with readPreference := some p }
  | "write_concern" => (decoded (WriteConcern.ofValue? v)).map fun c => { r with writeConcern := some c }
  | "cache" => (decoded (directiveOf? v)).map fun d => { r with cache := some d }
  | name => decoded (v.bool?.bind (r.setFlag? name))

end DocQuery.Request
