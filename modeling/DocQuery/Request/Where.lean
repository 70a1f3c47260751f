import DocQuery.Fault
import DocQuery.Text
import DocQuery.Value.Text

/-!
# Condition trees

Calls file conditions under a combinator.  Within a combinator a field has one condition: a later call overwrites an
earlier one in its place.  Conditions without a field are appended.  A deferred predicate is kept as it is and asked
for its calls only when the tree is compiled.
-/
namespace DocQuery

/-!
## Combinators of conditions

Conditions are filed under one of three combinators.
-/

inductive Logic where
  | and
  | or
  | xor
  deriving DecidableEq

namespace Logic

def key : Logic → String
  | and => "$and"
  | or => "$or"
  | xor => "$xor"

/-- The combinator of a name, with or without dollar signs before it and in any case. -/
def parse (s : String) : Except Fault Logic :=
  match Text.lower (Text.dropLeading '$' s) with
  | "and" => .ok and
  | "or" => .ok or
  | "xor" => .ok xor
  | other => .error (.query (.logic other))

end Logic

/-!
## Comparisons — an operator and an operand

A comparison is an operator with an operand, or several such pairs which must all hold.  Loose values are read as
comparisons: a pair of a text and a value, a list of such pairs, and anything else as equality.
-/

inductive Comparison where
  | single (op : String) (v : Value)
  | many (pairs : List (String × Value))

namespace Comparison

def eq (v : Value) : Comparison := single "=" v

def pair? : Value → Option (String × Value)
  | .arr [.str op, v] => some (op, v)
  | _ => none

def pairs? : List Value → Option (List (String × Value))
  | [] => some []
  | v :: r =>
    match pair? v, pairs? r with
    | some p, some ps => some (p :: ps)
    | _, _ => none

def ofItems (items : List Value) : Comparison :=
  match pair? (.arr items) with
  | some (op, v) => single op v
  | none =>
    match pairs? items with
    | some (p :: ps) => many (p :: ps)
    | _ => eq (.arr items)

def ofValue : Value → Comparison
  | .arr items => ofItems items
  | v => eq v

def beqPairs : List (String × Value) → List (String × Value) → Bool
  | [], [] => true
  | (a, v) :: r, (b, w) :: s => a == b && v == w && beqPairs r s
  | _, _ => false

def beq : Comparison → Comparison → Bool
  | single a v, single b w => a == b && v == w
  | many ps, many qs => beqPairs ps qs
  | _, _ => false

mutual

def showValue : Value → String
  | .null => "Null"
  | .bool b => if b then "Bool(true)" else "Bool(false)"
  | .int n => "Number(" ++ (Value.int n).text ++ ")"
  | .float x => "Number(" ++ (Value.float x).text ++ ")"
  | .str s => "String(" ++ Text.shown s ++ ")"
  | .arr xs => "Array [" ++ showItems xs ++ "]"
  | .obj fs => "Object \x7b" ++ showFields fs ++ "\x7d"

def showItems : List Value → String
  | [] => ""
  | [x] => showValue x
  | x :: xs => showValue x ++ ", " ++ showItems xs

def showFields : List (String × Value) → String
  | [] => ""
  | [(k, v)] => Text.shown k ++ ": " ++ showValue v
  | (k, v) :: r => Text.shown k ++ ": " ++ showValue v ++ ", " ++ showFields r

end

/-- A comparison as messages show it. -/
def shown : Comparison → String
  | single op v => "(" ++ op ++ ", " ++ v.text ++ ")"
  | many pairs =>
    "[" ++ Text.join ", " (pairs.map fun p => "(" ++ Text.shown p.1 ++ ", " ++ showValue p.2 ++ ")") ++ "]"

end Comparison

/-! ## Groups and trees -/

/-- One combinator's entries: conditions with the field they are on, or without one. -/
abbrev Group (α : Type) := List (Option String × α)

namespace Group

def set {α : Type} (g : Group α) (field : Option String) (c : α) : Group α :=
  match field with
  | none => g ++ [(none, c)]
  | some name => Keyed.set g (some name) c

def setAll {α : Type} (g : Group α) (entries : Group α) : Group α := entries.foldl (fun g e => set g e.1 e.2) g

def get? {α : Type} (g : Group α) (field : String) : Option α := Keyed.get? g (some field)

def remove {α : Type} (g : Group α) (field : String) : Group α := Keyed.erase g (some field)

end Group

/-- The groups of the combinators, in the order of their first use. -/
abbrev Where (α : Type) := Keyed Logic (Group α)

namespace Where

/-- Files entries under a combinator; without entries, nothing is touched. -/
def file {α : Type} (w : Where α) (logic : Logic) (entries : Group α) : Where α :=
  match entries with
  | [] => w
  | _ => Keyed.set w logic (Group.setAll ((Keyed.get? w logic).getD []) entries)

def remove {α : Type} (w : Where α) (logic : Logic) (field : String) : Where α :=
  match Keyed.get? w logic with
  | some g => Keyed.set w logic (g.remove field)
  | none => w

def isEmpty {α : Type} (w : Where α) : Bool := w.all fun e => e.2.isEmpty

end Where

mutual

/-- A call that files conditions.  `σ` is what a deferred predicate is shown of the request that it is filed on.  That
is less than all of it: the conditions of the request cannot be part of it, as predicates are among them. -/
inductive FilterCall (σ : Type) where
  /-- a field, or a raw expression, with an operator and an operand -/
  | name (logic : Logic) (field : String) (op operand : Option Value)
  | batch (logic : Logic) (entries : List (String × Condition σ))
  /-- a predicate whose calls are not known yet, with the name of a combinator for them -/
  | deferred (logic : Logic) (op : Option Value) (predicate : σ → List (FilterCall σ))

inductive Condition (σ : Type) where
  | plain (c : Comparison)
  | deferred (op : Option String) (predicate : σ → List (FilterCall σ))

end

namespace FilterCall

variable {σ : Type}

def logic : FilterCall σ → Logic
  | name l _ _ _ => l
  | batch l _ => l
  | deferred l _ _ => l

/-- Operators that need no operand. -/
def isNullTest (op : String) : Bool := ["null", "notnull", "not null"].contains (Text.lower op)

def operatorText : Value → String
  | .str s => s
  | v => v.text

/-- The entries of a call on a field.  A blank field alone is nothing, any other field alone a raw expression; an array
is read as pairs; an operator without operand, or an operand without operator, is a value to be equal to. -/
def nameEntries (field : String) (op operand : Option Value) : Group Comparison :=
  match op, operand with
  | none, none => if Text.trim field = "" then [] else [(none, .single "exp" (.str field))]
  | some (.arr items), _ => [(some field, .ofItems items)]
  | some op, operand =>
    match op.str?.filter isNullTest with
    | some test => [(some field, .single test (.str ""))]
    | none =>
      match operand with
      | some v => [(some field, .single (operatorText op) v)]
      | none => [(some field, .eq op)]
  | none, some v => [(some field, .eq v)]

def entries : FilterCall σ → Group (Condition σ)
  | name _ field op operand => (nameEntries field op operand).map fun e => (e.1, .plain e.2)
  | batch _ es => es.map fun e => (some e.1, e.2)
  | deferred _ op predicate => [(none, .deferred (op.bind Value.str?) predicate)]

/-- A call on the fields of an object, each with a loose value. -/
def ofFields (logic : Logic) (fs : Fields) : FilterCall σ :=
  batch logic (fs.map fun e => (e.1, .plain (.ofValue e.2)))

end FilterCall

namespace Where

def add {σ : Type} (w : Where (Condition σ)) (call : FilterCall σ) : Where (Condition σ) :=
  w.file call.logic call.entries

end Where

end DocQuery
