import DocQuery.Value.Shape

/-!
# Preferences for reads, writes and rows

Where a read may go, how many members have to acknowledge a write, and the shape that rows are delivered in.  Each is
read from a value and written back to one.
-/
namespace DocQuery

inductive ReadMode where
  | primary
  | primaryPreferred
  | secondary
  | secondaryPreferred
  | nearest
  deriving DecidableEq

def ReadMode.name : ReadMode → String
  | primary => "primary"
  | primaryPreferred => "primaryPreferred"
  | secondary => "secondary"
  | secondaryPreferred => "secondaryPreferred"
  | nearest => "nearest"

def ReadMode.all : List ReadMode := [primary, primaryPreferred, secondary, secondaryPreferred, nearest]

def ReadMode.ofName? (s : String) : Option ReadMode := ReadMode.all.find? (·.name == s)

structure ReadPreference where
  mode : ReadMode
  tagSets : List Value
  maxStaleness : Option Int

namespace ReadPreference

/-- Reads a preference; only the mode is needed. -/
def ofValue? (v : Value) : Option ReadPreference := do
  let fs ← v.record? ["mode", "tag_sets", "max_staleness_seconds"]
  let mode ← (← Keyed.get? fs "mode").choice?
  return { mode := ← ReadMode.ofName? mode
           tagSets := ← Value.fieldOr fs "tag_sets" [] Value.items?
           maxStaleness := ← Value.optionalField fs "max_staleness_seconds" Value.signed? }

/-- The value of a preference, without what is empty. -/
def toValue (p : ReadPreference) : Value :=
  .obj <| [("mode", .str p.mode.name)] ++ (if p.tagSets.isEmpty then [] else [("tag_sets", .arr p.tagSets)]) ++
    (match p.maxStaleness with
      | some n => [("max_staleness_seconds", .int n)]
      | none => [])

end ReadPreference

structure WriteConcern where
  /-- a number of members or the name of a rule -/
  members : Value
  timeout : Option Nat
  journal : Option Bool

namespace WriteConcern

/-- Reads a concern; only the members are needed. -/
def ofValue? (v : Value) : Option WriteConcern := do
  let fs ← v.record? ["w", "wtimeout_ms", "journal"]
  return { members := ← Keyed.get? fs "w"
           timeout := ← Value.optionalField fs "wtimeout_ms" Value.unsigned?
           journal := ← Value.optionalField fs "journal" Value.bool? }

def toValue (c : WriteConcern) : Value :=
  .obj <| [("w", c.members)] ++
    (match c.timeout with
      | some n => [("wtimeout_ms", .ofNat n)]
      | none => []) ++
    (match c.journal with
      | some b => [("journal", .bool b)]
      | none => [])

end WriteConcern

/-- The two kinds of containers that rows can be delivered in. -/
inductive RowKind where
  | array
  | object
  deriving DecidableEq

def RowKind.name : RowKind → String
  | array => "array"
  | object => "object"

def RowKind.ofValue? (v : Value) : Option RowKind :=
  match v.choice? with
  | some "array" => some array
  | some "object" => some object
  | _ => none

structure RowShape where
  root : RowKind := .array
  document : RowKind := .array
  deriving DecidableEq

namespace RowShape

/-- Reads a shape; missing parts are arrays. -/
def ofValue? (v : Value) : Option RowShape := do
  let fs ← v.record? ["root", "document"]
  return { root := ← Value.fieldOr fs "root" .array RowKind.ofValue?
           document := ← Value.fieldOr fs "document" .array RowKind.ofValue? }

def toValue (s : RowShape) : Value := .obj [("root", .str s.root.name), ("document", .str s.document.name)]

end RowShape

end DocQuery
