import DocQuery.Text
import DocQuery.Value.Text

/-!
# Faults — why an operation did not succeed

Every failure is one value of `Fault`.  The causes are told apart by constructors; `message` gives their wording.
-/
namespace DocQuery

inductive SettingsFault where
  | noHost
  | noMaster
  | slaveOutside (slave hosts : Nat)
  /-- reads and writes are to be separated, but no host is left for reads -/
  | fewHosts (masters hosts : Nat)
  /-- the text or a value in it cannot be read as settings -/
  | unreadable
  | worded (text : String)
  deriving DecidableEq

def SettingsFault.text : SettingsFault → String
  | noHost => "either hostname or dsn must be configured"
  | noMaster => "master_num must be at least 1"
  | slaveOutside slave hosts => s!"slave_no {slave} is outside the {hosts} configured hosts"
  | fewHosts masters hosts => s!"rw_separate needs more than master_num ({masters}) hosts, got {hosts}"
  | unreadable => "the settings cannot be read"
  | worded text => text

inductive Precondition where
  | insertData
  | updateData
  | deleteCondition
  | counterCondition
  | worded (text : String)
  deriving DecidableEq

def Precondition.text : Precondition → String
  | insertData => "miss data to insert"
  | updateData => "miss update data"
  | deleteCondition => "delete without condition"
  | counterCondition => "no data to update"
  | worded text => text

inductive QueryFault where
  | objectId (s : String)
  | filterShape (v : Value)
  | arrayNeeded (operator : String)
  /-- a condition in a scripting language, which is not evaluated here -/
  | script
  | logicalOperator (name : String)
  | existsOperand
  | patternOperand
  | pattern
  | sizeOperand
  | modOperand
  | fieldOperator (name : String)
  | pipelineShape
  /-- a stage or accumulator without exactly one operator -/
  | oneOperator (what : String)
  | sortShape
  | sortDirection
  | limitCount
  | skipCount
  | stage (name : String)
  | projectShape
  | groupShape
  | groupKeyShape
  | groupKeyMissing
  | fieldReference (what : String)
  | accumulator (name : String)
  | logic (name : String)
  | limitText (s : String)
  | bounds (operator : String) (v : Value)
  | sizeValue (v : Value)
  | conditionOperator (name : String)
  | uncombinable (operator field : String)
  | fieldless (condition : String)
  | updateOperator (name : String)
  | noAggregate
  | commandShape (v : Value)
  | noCollection
  | chunkSize
  | worded (text : String)

def QueryFault.text : QueryFault → String
  | objectId s => s!"invalid ObjectId: {s}"
  | filterShape v => s!"filter must be a document, got {v.text}"
  | arrayNeeded operator => s!"{operator} requires array"
  | script => "$where expressions are not evaluated in memory"
  | logicalOperator name => s!"Unknown logical operator: {name}"
  | existsOperand => "$exists requires bool"
  | patternOperand => "$regex requires string"
  | pattern => "the pattern is not well formed"
  | sizeOperand => "$size requires a non-negative integer"
  | modOperand => "$mod requires [divisor, remainder]"
  | fieldOperator name => s!"Unknown operator: {name}"
  | pipelineShape => "Pipeline must be an array"
  | oneOperator what => s!"{what} must have exactly one operator"
  | sortShape => "$sort must be an object"
  | sortDirection => "Sort direction must be 1 or -1"
  | limitCount => "$limit must be a positive number"
  | skipCount => "$skip must be a positive number"
  | stage name => s!"Unknown pipeline stage: {name}"
  | projectShape => "$project must be an object"
  | groupShape => "$group must be an object"
  | groupKeyShape => "Group _id must be null, a field reference or a document"
  | groupKeyMissing => "Group stage must have _id field"
  | fieldReference what => s!"{what} must be a field reference"
  | accumulator name => s!"Unknown accumulator: {name}"
  | logic name => s!"unknown logical operator: {name}"
  | limitText s => s!"malformed limit: {Text.shown s}"
  | bounds operator v => s!"{operator} requires two bounds, got {v.text}"
  | sizeValue v => s!"size requires a non-negative integer, got {v.text}"
  | conditionOperator name => s!"unknown filter operator: {name}"
  | uncombinable operator field => s!"{operator} cannot be combined on {field}"
  | fieldless condition => s!"condition without a field: {condition}"
  | updateOperator name => s!"unknown update operator: {name}"
  | noAggregate => "aggregate operator is empty"
  | commandShape v => s!"command must be a non-empty document, got {v.text}"
  | noCollection => "no collection selected"
  | chunkSize => "chunk size must be positive"
  | worded text => text

inductive DriverKind where
  | authentication
  | connection
  | invalidArgument
  | bulkWrite
  | runtime
  deriving DecidableEq

def DriverKind.name : DriverKind → String
  | authentication => "Authentication"
  | connection => "Connection"
  | invalidArgument => "InvalidArgument"
  | bulkWrite => "BulkWrite"
  | runtime => "Runtime"

def DriverKind.all : List DriverKind := [authentication, connection, invalidArgument, bulkWrite, runtime]

def DriverKind.ofName? (s : String) : Option DriverKind := DriverKind.all.find? (·.name == s)

def DriverKind.heading : DriverKind → String
  | authentication => "Authentication failed"
  | connection => "Connection failed"
  | invalidArgument => "Invalid argument"
  | bulkWrite => "Bulk write failed"
  | runtime => "Driver runtime error"

/-- A failure on the side of the store, handed to the caller as it is. -/
structure DriverFault where
  kind : DriverKind
  text : String
  deriving DecidableEq

inductive Fault where
  | settings (cause : SettingsFault)
  | precondition (cause : Precondition)
  | notFound (what : String)
  | query (cause : QueryFault)
  /-- a value does not have the form that its use needs -/
  | serialization
  | io
  | driver (cause : DriverFault)

namespace Fault

def message : Fault → String
  | settings cause => s!"Configuration error: {cause.text}"
  | precondition cause => cause.text
  | notFound what => s!"Not found: {what}"
  | query cause => s!"Invalid query: {cause.text}"
  | serialization => "Serialization error: the value has another form"
  | io => "IO error: the file cannot be read"
  | driver cause => s!"{cause.kind.heading}: {cause.text}"

def isDriver : Fault → Bool
  | driver _ => true
  | _ => false

end Fault

end DocQuery
