import DocQuery.Concern
import DocQuery.Fault
import DocQuery.KeyRule
import DocQuery.Text

/-!
# Settings of a connection

Where the servers are, how they share the work, and how keys and rows are treated.  Lists of hosts, ports and
credentials are comma lists, one part for each host.
-/
namespace DocQuery

inductive Deployment where
  /-- one server, or one replica set behind one connection string -/
  | centralized
  /-- several servers side by side -/
  | distributed
  deriving DecidableEq

structure Settings where
  hostname : String := "127.0.0.1"
  hostport : String := "27017"
  database : String := ""
  username : String := ""
  password : String := ""
  /-- a whole connection string, which is used instead of hosts and credentials -/
  dsn : String := ""
  params : Fields := []
  isReplicaSet : Bool := false
  /-- the name of the replica set; that of the database is used if it is empty -/
  replicaSet : String := ""
  pk : String := "_id"
  keyKind : KeyKind := .native
  tablePrefix : String := ""
  debug : Bool := false
  deployment : Deployment := .centralized
  /-- whether reads go to other hosts than writes -/
  separateReads : Bool := false
  /-- so many hosts from the first on are masters -/
  masterCount : Nat := 1
  slave : Option Nat := none
  /-- whether callers know a native `_id` as `id` -/
  convertId : Bool := false
  rowShape : RowShape := {}

namespace Settings

/-- The fields of the written form, in their order. -/
def fieldNames : List String :=
  ["hostname", "hostport", "database", "username", "password", "dsn", "params", "is_replica_set", "replica_set", "pk",
    "pk_type", "prefix", "debug", "deploy", "rw_separate", "master_num", "slave_no", "pk_convert_id", "type_map"]

def keyKindOf? (v : Value) : Option KeyKind :=
  match v.choice? with
  | some "ObjectId" | some "ObjectID" | some "objectid" => some .native
  | some "Auto" | some "auto" => some .supplied
  | _ => none

def deploymentOf? : Value → Option Deployment
  | .int 0 => some .centralized
  | .int 1 => some .distributed
  | _ => none

/-- Reads settings; what is missing has its default. -/
def ofValue? (v : Value) : Option Settings := do
  let fs ← v.record? fieldNames
  let text (key default : String) : Option String := Value.fieldOr fs key default Value.str?
  let flag (key : String) : Option Bool := Value.fieldOr fs key false Value.bool?
  return { hostname := ← text "hostname" "127.0.0.1"
           hostport := ← text "hostport" "27017"
           database := ← text "database" ""
           username := ← text "username" ""
           password := ← text "password" ""
           dsn := ← text "dsn" ""
           params := ← Value.fieldOr fs "params" [] Value.fields?
           isReplicaSet := ← flag "is_replica_set"
           replicaSet := ← text "replica_set" ""
           pk := ← text "pk" "_id"
           keyKind := ← Value.fieldOr fs "pk_type" .native keyKindOf?
           tablePrefix := ← text "prefix" ""
           debug := ← flag "debug"
           deployment := ← Value.fieldOr fs "deploy" .centralized deploymentOf?
           separateReads := ← flag "rw_separate"
           masterCount := ← Value.fieldOr fs "master_num" 1 (Value.below? (Nat.pow 2 64))
           slave := ← Value.optionalField fs "slave_no" (Value.below? (Nat.pow 2 64))
           convertId := ← flag "pk_convert_id"
           rowShape := ← Value.fieldOr fs "type_map" {} RowShape.ofValue? }

def toValue (s : Settings) : Value :=
  .obj [("hostname", .str s.hostname), ("hostport", .str s.hostport), ("database", .str s.database),
    ("username", .str s.username), ("password", .str s.password), ("dsn", .str s.dsn), ("params", .obj s.params),
    ("is_replica_set", .bool s.isReplicaSet), ("replica_set", .str s.replicaSet), ("pk", .str s.pk),
    ("pk_type", .str s.keyKind.name), ("prefix", .str s.tablePrefix), ("debug", .bool s.debug),
    ("deploy", .int (if s.deployment = .distributed then 1 else 0)), ("rw_separate", .bool s.separateReads),
    ("master_num", .ofNat s.masterCount), ("slave_no", Value.orNull (s.slave.map .ofNat)),
    ("pk_convert_id", .bool s.convertId), ("type_map", s.rowShape.toValue)]

def hosts (s : Settings) : List String := Text.splitList s.hostname

/-- The number of hosts or connection strings, whichever are more. -/
def endpointCount (s : Settings) : Nat := max s.hosts.length (Text.splitList s.dsn).length

def isDistributed (s : Settings) : Bool := s.deployment == .distributed

def logicalKey (s : Settings) : String := if s.convertId ∧ s.pk = "_id" then "id" else s.pk

def replicaSetName (s : Settings) : String := if s.replicaSet = "" then s.database else s.replicaSet

def keyRule (s : Settings) : KeyRule := ⟨s.convertId, s.keyKind⟩

def validate (s : Settings) : Except Fault Unit :=
  if s.endpointCount = 0 then .error (.settings .noHost)
  else if !s.isDistributed then .ok ()
  else if s.masterCount = 0 then .error (.settings .noMaster)
  else
    match s.slave with
    | some slave =>
      if s.endpointCount ≤ slave then .error (.settings (.slaveOutside slave s.endpointCount)) else .ok ()
    | none =>
      if s.separateReads ∧ s.endpointCount ≤ s.masterCount then
        .error (.settings (.fewHosts s.masterCount s.endpointCount))
      else .ok ()

/-- Settings with what an environment names in their place. -/
def override (s : Settings) (lookup : String → Option String) : Settings :=
  { s with
    hostname := (lookup "MONGOQUERY_HOSTNAME").getD s.hostname
    hostport := (lookup "MONGOQUERY_HOSTPORT").getD s.hostport
    database := (lookup "MONGOQUERY_DATABASE").getD s.database
    username := (lookup "MONGOQUERY_USERNAME").getD s.username
    password := (lookup "MONGOQUERY_PASSWORD").getD s.password
    dsn := (lookup "MONGOQUERY_DSN").getD s.dsn }

end Settings

end DocQuery
