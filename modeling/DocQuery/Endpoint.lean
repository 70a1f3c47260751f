import DocQuery.Settings
import DocQuery.Text

/-!
# Endpoints — the servers that reads and writes go to

A centralized deployment has one endpoint.  A distributed one has an endpoint for each host; where reads are kept apart,
writes go to the masters and reads to the other hosts, or to the one host that is set for them.
-/
namespace DocQuery

/-- A server that a link can be opened to. -/
inductive Slot where
  | standalone
  | replicaSet
  | host (index : Nat)
  deriving DecidableEq

def Slot.text : Slot → String
  | standalone => "standalone"
  | replicaSet => "replica-set"
  | host i => s!"host#{i}"

def Slot.ofText? (s : String) : Option Slot :=
  if s = standalone.text then some standalone
  else if s = replicaSet.text then some replicaSet
  else ((Text.after? "host#" s).bind Text.unsigned64?).map host

inductive Role where
  | read
  | write
  deriving DecidableEq

inductive Topology where
  | standalone
  | replicaSet
  | distributed (separateReads : Bool)
  deriving DecidableEq

namespace Settings

def topology (s : Settings) : Topology :=
  match s.deployment with
  | .centralized => if s.isReplicaSet then .replicaSet else .standalone
  | .distributed => .distributed s.separateReads

/-- The number of hosts side by side; there is always one. -/
def hostCount (s : Settings) : Nat := max s.endpointCount 1

/-- The number of masters among the hosts; there is always one. -/
def masters (s : Settings) : Nat := max 1 (min s.masterCount s.hostCount)

def hostSlots (first last : Nat) : List Slot := (List.range' first (last - first)).map .host

def choices (s : Settings) (role : Role) : List Slot :=
  match s.topology with
  | .standalone => [.standalone]
  | .replicaSet => [.replicaSet]
  | .distributed false => hostSlots 0 s.hostCount
  | .distributed true =>
    match role with
    | .write => if s.isReplicaSet then [.replicaSet] else hostSlots 0 s.masters
    | .read =>
      match s.slave with
      | some i => [.host (min i (s.hostCount - 1))]
      | none => if s.masters < s.hostCount then hostSlots s.masters s.hostCount else hostSlots 0 s.masters

def select (s : Settings) (role : Role) (draw : Nat) : Slot :=
  let slots := s.choices role
  slots.getD (draw % slots.length) .standalone

def isMaster (s : Settings) : Slot → Bool
  | .host i => i < s.masterCount
  | _ => true

/-- The part of a comma list for a host: the one at its index, else the first. -/
def part (list : String) (index : Nat) : String :=
  let parts := Text.splitList list
  parts.getD index (parts.headD "")

def forHost (s : Settings) (index : Nat) : Settings :=
  { s with
    hostname := part s.hostname index
    hostport := part s.hostport index
    database := part s.database index
    username := part s.username index
    password := part s.password index
    dsn := part s.dsn index }

def databaseFor (s : Settings) : Slot → String
  | .host i => (s.forHost i).database
  | _ => s.database

end Settings

end DocQuery
