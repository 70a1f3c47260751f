import DocQuery.Driver

/-!
# A driver that follows a script

Every request but the delivery of rows takes the next reply of a script, and all requests are recorded.  A script that
is used up replies with nothing.
-/
namespace DocQuery

inductive DriverCall where
  | connect (address : String) (params : Fields)
  | query (ns : Namespace) (q : FindPayload) (preference : Option ReadPreference)
  | write (ns : Namespace) (b : BulkWrite) (concern : Option WriteConcern)
  | command (database : String) (c : Command) (preference : Option ReadPreference)
  | deliver (shape : RowShape)

inductive ScriptReply where
  | fault (cause : DriverFault)
  | rows (rows : List Value)
  | counters (result : WriteResult)

structure Script where
  replies : List ScriptReply
  calls : List DriverCall := []
  links : Nat := 0

namespace Script

def record (s : Script) (call : DriverCall) : Script := { s with calls := s.calls ++ [call] }

/-- Records a request and takes the next reply. -/
def reply (s : Script) (call : DriverCall) : Except Fault ScriptReply × Script :=
  match s.replies with
  | [] => (.ok (.rows []), s.record call)
  | .fault cause :: rest => (.error (.driver cause), { s.record call with replies := rest })
  | r :: rest => (.ok r, { s.record call with replies := rest })

def rowsOf : ScriptReply → List Value
  | .rows rows => rows
  | _ => []

def countersOf : ScriptReply → WriteResult
  | .counters r => r
  | _ => {}

/-- Opens a link, which the script can forbid. -/
def connect (s : Script) (address : String) (params : Fields) : Except Fault Link × Script :=
  let (r, s) := s.reply (.connect address params)
  (r.map fun _ => ⟨s.links⟩, { s with links := s.links + 1 })

def driver : Driver Script :=
  { connect := fun address params => .of fun s => s.connect address params
    query := fun _ ns q preference => .of fun s => (s.reply (.query ns q preference)).map (.map rowsOf) id
    write := fun _ ns b concern => .of fun s => (s.reply (.write ns b concern)).map (.map countersOf) id
    command := fun _ database c preference => .of fun s =>
      (s.reply (.command database c preference)).map (.map rowsOf) id
    deliver := fun shape rows => .of fun s => (.ok rows, s.record (.deliver shape)) }

end Script

end DocQuery
