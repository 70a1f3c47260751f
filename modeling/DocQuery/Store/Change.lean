import DocQuery.Fault
import DocQuery.Value.Path

/-!
# Changes to stored documents

A change is a document of operators, each with the fields it acts on, or a document to take the place of the old one.
Operators act one field after the other; when one fails, what the earlier ones did stays done.
-/
namespace DocQuery

inductive ChangeFault where
  | shape
  | operatorShape (op : String)
  | notANumber (field : String)
  | notAnArray (op field : String)
  | operator (op : String)

def ChangeFault.text : ChangeFault → String
  | shape => "update must be a document"
  | operatorShape op => s!"{op} requires a document"
  | notANumber field => s!"cannot $inc non-numeric field {field}"
  | notAnArray op field => s!"{op} target {field} is not an array"
  | operator op => s!"Unsupported update operator: {op}"

def ChangeFault.fault (f : ChangeFault) : Fault := .driver ⟨.runtime, f.text⟩

namespace Change

/-- The values that an operand adds: those under `$each`, or the operand itself. -/
def addends (operand : Value) : List Value :=
  match operand.field? "$each" with
  | some (.arr xs) => xs
  | _ => [operand]

theorem addends_eq_iff {operand : Value} {vs : List Value} : addends operand = vs ↔
    operand.field? "$each" = some (.arr vs) ∨ (∀ xs, operand.field? "$each" ≠ some (.arr xs)) ∧ vs = [operand] := by
  unfold addends
  split
  · rename_i xs h
    simp [h]
  · rename_i hno
    constructor
    · rintro rfl
      exact .inr ⟨hno, rfl⟩
    · rintro (h | ⟨-, rfl⟩)
      · exact absurd h (hno vs)
      · rfl

def listOperand (operand : Value) : List Value := operand.items?.getD []

/-- The document with an empty array at a path where nothing was. -/
def withTarget (doc : Value) (path : String) : Value :=
  match doc.path? path with
  | none => doc.setPath path (.arr [])
  | some _ => doc

def target? (doc : Value) (path : String) : Option (List Value) :=
  (doc.throughObjects? (Path.ofText path)).bind Value.items?

def setItems (doc : Value) (path : String) (items : List Value) : Value :=
  doc.modifyAt (fun _ => .arr items) (Path.ofText path)

/-- The sum of two numbers: whole, and in a signed word of 64 bits, if both fit such a word, a float otherwise. -/
def add? (a b : Value) : Option Value :=
  match a.signed?, b.signed? with
  | some m, some n => some (.int (Value.wrapped (m + n)))
  | _, _ =>
    match a.number?, b.number? with
    | some x, some y => some (Value.ofFloat (x + y))
    | _, _ => none

/-- Adds a step to the number at a path; where nothing was, the step itself is put. -/
def increment (doc : Value) (path : String) (step : Value) : Except ChangeFault Value :=
  match doc.path? path with
  | none => .ok (doc.setPath path step)
  | some current =>
    match add? current step with
    | some sum => .ok (doc.setPath path sum)
    | none => .error (.notANumber path)

/-- Appends those values that are not among the items yet, each of them once. -/
def addNew : List Value → List Value → List Value
  | items, [] => items
  | items, v :: vs => addNew (if items.any (· == v) then items else items ++ [v]) vs

/-- Changes the items of the array at a path, which is made if nothing was there. -/
def editArray (op path : String) (doc : Value) (edit : List Value → List Value) : Except ChangeFault Value :=
  let doc := withTarget doc path
  match target? doc path with
  | some items => .ok (setItems doc path (edit items))
  | none => .error (.notAnArray op path)

/-- Changes the items of the array at a path, which is made if nothing was there; what is no array stays. -/
def shrinkArray (path : String) (doc : Value) (edit : List Value → List Value) : Value :=
  let doc := withTarget doc path
  match target? doc path with
  | some items => setItems doc path (edit items)
  | none => doc

def without (values items : List Value) : List Value := items.filter fun v => !values.any (· == v)

def operate (op path : String) (operand doc : Value) : Except ChangeFault Value :=
  match op with
  | "$set" => .ok (doc.setPath path operand)
  | "$unset" => .ok (doc.removePath path)
  | "$inc" => increment doc path operand
  | "$push" => editArray op path doc (· ++ addends operand)
  | "$pushAll" => editArray op path doc (· ++ listOperand operand)
  | "$addToSet" => editArray op path doc (addNew · (addends operand))
  | "$pop" =>
    .ok (shrinkArray path doc fun items => if operand.signed? = some (-1) then items.drop 1 else items.dropLast)
  | "$pull" => .ok (shrinkArray path doc (without [operand]))
  | "$pullAll" => .ok (shrinkArray path doc (without (listOperand operand)))
  | _ => .error (.operator op)

/-- What one operator does to some fields: the document as far as it got, and why it got no further. -/
def operateAll (op : String) : List (String × Value) → Value → Value × Option ChangeFault
  | [], doc => (doc, none)
  | (path, operand) :: r, doc =>
    match operate op path operand doc with
    | .ok doc => operateAll op r doc
    | .error f => (doc, some f)

def run : List (String × Value) → Value → Value × Option ChangeFault
  | [], doc => (doc, none)
  | (op, .obj fields) :: r, doc =>
    match operateAll op fields doc with
    | (doc, none) => run r doc
    | (doc, some f) => (doc, some f)
  | (op, _) :: _, doc => (doc, some (.operatorShape op))

/-- A document in the place of another, whose identifier it keeps. -/
def replacement (doc : Value) (fs : Fields) : Value :=
  match doc.field? "_id" with
  | some id => .obj (Keyed.set fs "_id" id)
  | none => .obj fs

def isOperators (fs : Fields) : Bool := fs.all fun e => Text.startsWith e.1 "$"

/-- Makes a change: the new document, and whether it differs from the old one or why the change failed. -/
def apply (change doc : Value) : Value × Except ChangeFault Bool :=
  match change with
  | .obj fs =>
    if isOperators fs then
      match run fs doc with
      | (new, none) => (new, .ok (new != doc))
      | (new, some f) => (new, .error f)
    else
      let new := replacement doc fs
      (new, .ok (new != doc))
  | _ => (doc, .error .shape)

end Change

end DocQuery
