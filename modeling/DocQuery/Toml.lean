import DocQuery.Value

/-!
# Tables of a configuration text

The tree that the lines of a configuration text build up.  A table is defined once: by its header, or by dotted keys
inside another table; a header may still define a table that only longer headers have mentioned.
-/
namespace DocQuery.Toml

inductive Origin where
  | header
  | mentioned
  | dotted
  deriving DecidableEq

inductive Node where
  | leaf (v : Value)
  | table (origin : Origin) (entries : List (String × Node))
  /-- tables under one repeated header, the last one first -/
  | tables (elements : List (List (String × Node)))

abbrev Entries := List (String × Node)

mutual

def Node.value : Node → Value
  | .leaf v => v
  | .table _ es => .obj (entryValues es)
  | .tables elements => .arr (elementValues elements [])

def entryValues : List (String × Node) → List (String × Value)
  | [] => []
  | (k, n) :: r => (k, n.value) :: entryValues r

/-- The objects that repeated tables stand for, in their order in the text. -/
def elementValues : List (List (String × Node)) → List Value → List Value
  | [], acc => acc
  | es :: r, acc => elementValues r (.obj (entryValues es) :: acc)

end

/-- Changes the table at the end of a path of headers; tables on the way that are missing are mentioned. -/
def withTable (change : Entries → Option Entries) : List String → Entries → Option Entries
  | [], es => change es
  | k :: path, es =>
    match Keyed.get? es k with
    | none => (withTable change path []).map fun inner => Keyed.set es k (.table .mentioned inner)
    | some (.table origin inner) =>
      (withTable change path inner).map fun inner => Keyed.set es k (.table origin inner)
    | some (.tables (last :: before)) =>
      (withTable change path last).map fun last => Keyed.set es k (.tables (last :: before))
    | some _ => none

/-- Defines a table by its header; fails if it is defined already.  Its place is that of its own header. -/
def defineTable (key : String) (es : Entries) : Option Entries :=
  match Keyed.get? es key with
  | none => some (Keyed.set es key (.table .header []))
  | some (.table .mentioned inner) => some (Keyed.set (Keyed.erase es key) key (.table .header inner))
  | some _ => none

def startElement (key : String) (es : Entries) : Option Entries :=
  match Keyed.get? es key with
  | none => some (Keyed.set es key (.tables [[]]))
  | some (.tables elements) => some (Keyed.set es key (.tables ([] :: elements)))
  | some _ => none

/-- Puts a node under a dotted key; tables that the key names are its own, or those of other dotted keys. -/
def assign (n : Node) : List String → Entries → Option Entries
  | [], _ => none
  | [k], es => if Keyed.has es k then none else some (Keyed.set es k n)
  | k :: path, es =>
    match Keyed.get? es k with
    | none => (assign n path []).map fun inner => Keyed.set es k (.table .dotted inner)
    | some (.table .dotted inner) => (assign n path inner).map fun inner => Keyed.set es k (.table .dotted inner)
    | some (.table .mentioned inner) =>
      match path with
      | [_] => none
      | _ => (assign n path inner).map fun inner => Keyed.set es k (.table .mentioned inner)
    | some (.tables (last :: before)) =>
      match path with
      | [_] => none
      | _ => (assign n path last).map fun last => Keyed.set es k (.tables (last :: before))
    | some _ => none

end DocQuery.Toml
