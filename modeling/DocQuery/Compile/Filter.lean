import DocQuery.Compile.Operator
import DocQuery.Request

/-!
# Compiling conditions to filter documents

A filter document has one array for each combinator that occurs.  Every condition contributes items to these arrays: a
condition on a list of fields one for each field, a deferred predicate the document its own calls compile to.
-/
namespace DocQuery

/-- Items for the arrays of a filter document, each with the key of its array. -/
abbrev Contribution := List (String × Value)

namespace KeyRule

def item (r : KeyRule) (field : String) (c : Comparison) : Except Fault Value :=
  let stored := r.storedName field
  match c with
  | .single op v => do
    match ← Compiled.ofOperator r stored op v with
    | .equals v => return .obj [(stored, v)]
    | .operators fs => return .obj [(stored, .obj fs)]
    | .document d => return d
  | .many pairs => (Compiled.ofPairs r field stored pairs []).map fun fs => .obj [(stored, .obj fs)]

def items (r : KeyRule) (key : String) (c : Comparison) : List String → Except Fault Contribution
  | [] => .ok []
  | field :: fields => do
    let first ← r.item field c
    return (key, first) :: (← items r key c fields)

/-- What a comparison contributes.  Fields between bars are alternatives, fields between ampersands must all agree;
without a field only a raw expression makes sense. -/
def plainContribution (r : KeyRule) (logic : Logic) (field : Option String) (c : Comparison) :
    Except Fault Contribution :=
  match field with
  | none =>
    match c with
    | .single "exp" v => .ok [(logic.key, .obj [("$where", v)])]
    | c => .error (.query (.fieldless c.shown))
  | some field =>
    if Text.hasChar '|' field then r.items "$or" c (Text.cut '|' field)
    else if Text.hasChar '&' field then r.items "$and" c (Text.cut '&' field)
    else r.items logic.key c [field]

def push (filter : Fields) (item : String × Value) : Fields :=
  match Keyed.get? filter item.1 with
  | none => Keyed.set filter item.1 (.arr [item.2])
  | some (.arr xs) => Keyed.set filter item.1 (.arr (xs ++ [item.2]))
  | some _ => filter

/-- The filter document of the contributions of all conditions; the first failing one fails. -/
def collect : Fields → List (Except Fault Contribution) → Except Fault Fields
  | filter, [] => .ok filter
  | filter, c :: cs => do
    let items ← c
    collect (items.foldl push filter) cs

def contributions (w : Where (Except Fault Contribution)) : List (Except Fault Contribution) :=
  w.flatMap fun g => g.2.map Prod.snd

/-- The array that a nested document goes to: that of its own combinator, or of the one it is filed under. -/
def nestedKey (logic : Logic) (op : Option String) : Except Fault String :=
  match op with
  | none => .ok logic.key
  | some op => if Text.sameIgnoringCase op "not" then .ok "$nor" else (Logic.parse op).map Logic.key

/-- What a nested document contributes; an empty one contributes nothing. -/
def nestedContribution (logic : Logic) (op : Option String) (nested : Except Fault Fields) :
    Except Fault Contribution := do
  let fs ← nested
  if fs.isEmpty then return []
  else
    let key ← nestedKey logic op
    return [(key, .obj fs)]

mutual

def callContributions (r : KeyRule) (scope : Scope) : FilterCall Scope → Group (Except Fault Contribution)
  | .name logic field op operand =>
    (FilterCall.nameEntries field op operand).map fun e => (e.1, r.plainContribution logic e.1 e.2)
  | .batch logic entries => batchContributions r scope logic entries
  | .deferred logic op predicate =>
    let nested := callsTree r scope (predicate scope) []
    [(none, nestedContribution logic (op.bind Value.str?) (collect [] (contributions nested)))]

def batchContributions (r : KeyRule) (scope : Scope) (logic : Logic) :
    List (String × Condition Scope) → Group (Except Fault Contribution)
  | [] => []
  | (field, c) :: entries =>
    (some field, contribution r scope logic (some field) c) :: batchContributions r scope logic entries

/-- What a condition contributes.  The field of a deferred one does not count. -/
def contribution (r : KeyRule) (scope : Scope) (logic : Logic) (field : Option String) :
    Condition Scope → Except Fault Contribution
  | .plain c => r.plainContribution logic field c
  | .deferred op predicate =>
    nestedContribution logic op (collect [] (contributions (callsTree r scope (predicate scope) [])))

def callsTree (r : KeyRule) (scope : Scope) :
    List (FilterCall Scope) → Where (Except Fault Contribution) → Where (Except Fault Contribution)
  | [], w => w
  | c :: cs, w => callsTree r scope cs (w.file c.logic (callContributions r scope c))

end

def compileCalls (r : KeyRule) (scope : Scope) (calls : List (FilterCall Scope)) : Except Fault Fields :=
  collect [] (contributions (callsTree r scope calls []))

def compileFilter (r : KeyRule) (q : Request) : Except Fault Fields :=
  collect [] (q.filter.flatMap fun g => g.2.map fun e => r.contribution q.toScope g.1 e.1 e.2)

end KeyRule

end DocQuery
