import DocQuery.Driver
import DocQuery.Store.Read
import DocQuery.Store.Write

/-!
# The driver in memory

All links lead to one store.  The driver remembers every link that it opened, and refuses the connection strings it was
told to refuse.
-/
namespace DocQuery

/-- A store with what there is to know about links to it. -/
structure Memory where
  store : Store := []
  supply : IdSupply
  refused : Keyed String DriverFault := []
  /-- what the links were opened with, in order -/
  connects : List (String × Fields) := []

namespace Memory

def refuse (m : Memory) (address : String) (fault : DriverFault) : Memory :=
  { m with refused := Keyed.set m.refused address fault }

def allow (m : Memory) (address : String) : Memory := { m with refused := Keyed.erase m.refused address }

/-- Whether a text begins like a connection string. -/
def isAddress (s : String) : Bool := Text.startsWith s "mongodb://" || Text.startsWith s "mongodb+srv://"

def connect (m : Memory) (address : String) (params : Fields) : Except Fault Link × Memory :=
  match Keyed.get? m.refused address with
  | some fault => (.error (.driver fault), m)
  | none =>
    if isAddress address then
      (.ok ⟨m.connects.length⟩, { m with connects := m.connects ++ [(address, params)] })
    else (.error (.driver ⟨.invalidArgument, s!"invalid connection string: {address}"⟩), m)

def write (m : Memory) (ns : Namespace) (b : BulkWrite) : Except Fault WriteResult × Memory :=
  let (store, supply, r) := m.store.write m.supply ns b
  (r, { m with store := store, supply := supply })

def command (m : Memory) (database : String) (c : Command) : Except Fault (List Value) × Memory :=
  match m.store.command database c with
  | .ok (store, rows) => (.ok rows, { m with store := store })
  | .error f => (.error f, m)

/-- The driver in memory.  Preferences and shapes make no difference to it. -/
def driver : Driver Memory :=
  { connect := fun address params => .of fun m => m.connect address params
    query := fun _ ns q _ => .of fun m => (m.store.find ns q, m)
    write := fun _ ns b _ => .of fun m => m.write ns b
    command := fun _ database c _ => .of fun m => m.command database c
    deliver := fun _ rows => .of fun m => (.ok rows, m) }

end Memory

end DocQuery
