import DocQuery.Text
import DocQuery.Value

/-!
# Dotted paths

A path is the list of the segments between dots.  Reading goes through objects by key and through arrays by index;
writing goes through objects only and turns whatever else stands in its way into an object.
-/
namespace DocQuery

/-- The segments of a dotted path; there is at least one. -/
def Path.ofText (s : String) : List String := Text.cut '.' s

namespace Value

/-- One step down: a field of an object, or an item of an array by its index. -/
def step? (v : Value) (segment : String) : Option Value :=
  match v with
  | obj fs => Keyed.get? fs segment
  | arr xs => (Text.unsigned64? segment).bind (xs[·]?)
  | _ => none

def at? : Value → List String → Option Value
  | v, [] => some v
  | v, segment :: rest => (v.step? segment).bind (at? · rest)

def path? (v : Value) (path : String) : Option Value := v.at? (Path.ofText path)

def fieldsOrEmpty (v : Value) : Fields := v.fields?.getD []

/-- Sets the value behind some segments; what is no object on the way becomes one. -/
def setAt : Value → List String → Value → Value
  | _, [], new => new
  | v, segment :: rest, new =>
    let fs := v.fieldsOrEmpty
    obj (Keyed.set fs segment (((Keyed.get? fs segment).getD (obj [])).setAt rest new))

def setPath (v : Value) (path : String) (new : Value) : Value := v.setAt (Path.ofText path) new

/-- Changes the value behind some segments, if objects lead there; otherwise the value stays. -/
def modifyAt (f : Value → Value) : Value → List String → Value
  | v, [] => f v
  | obj fs, segment :: rest =>
    match Keyed.get? fs segment with
    | some w => obj (Keyed.set fs segment (modifyAt f w rest))
    | none => obj fs
  | v, _ :: _ => v

def throughObjects? : Value → List String → Option Value
  | v, [] => some v
  | v, segment :: rest => (v.field? segment).bind (throughObjects? · rest)

def dropField (key : String) : Value → Value
  | obj fs => obj (Keyed.swapErase fs key)
  | v => v

/-- Removes the field at a dotted path, if objects lead there. -/
def removePath (v : Value) (path : String) : Value :=
  let segments := Path.ofText path
  v.modifyAt (dropField (segments.getLastD "")) segments.dropLast

end Value

end DocQuery
