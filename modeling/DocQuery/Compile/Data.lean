import DocQuery.KeyRule
import DocQuery.Request

/-!
# Compiling data to documents and changes

For an insertion the data are the document.  For an update they become a document of operators: values are set, and
what carries an operator stands under it.
-/
namespace DocQuery.KeyRule

def document (r : KeyRule) (data : Keyed String Assignment) : Fields :=
  Keyed.ofList (data.map fun e => (r.storedName e.1, r.storedValue (r.storedName e.1) e.2.toValue))

/-- Puts a field under an operator; what stands there and is no object is left as it is. -/
def putUnder (change : Fields) (op key : String) (v : Value) : Fields :=
  match Keyed.get? change op with
  | none => Keyed.set change op (.obj [(key, v)])
  | some (.obj fs) => Keyed.set change op (.obj (Keyed.set fs key v))
  | some _ => change

def assign (r : KeyRule) (change : Fields) (field : String) : Assignment → Except Fault Fields
  | .plain v =>
    if Text.startsWith field "$" then .ok (Keyed.set change field v)
    else
      let key := r.storedName field
      .ok (putUnder change "$set" key (r.storedValue key v))
  | .operator op v =>
    if op = "exp" then .ok (Keyed.set change (r.storedName field) v)
    else if op ∈ updateOperators then .ok (putUnder change op (r.storedName field) v)
    else .error (.query (.updateOperator op))

def assignAll (r : KeyRule) : List (String × Assignment) → Fields → Except Fault Fields
  | [], change => .ok change
  | (field, a) :: rest, change => do assignAll r rest (← r.assign change field a)

def change (r : KeyRule) (data : Keyed String Assignment) : Except Fault Fields := r.assignAll data []

end DocQuery.KeyRule
