import DocQuery.ObjectId

/-!
# The order of values

Only values of one kind have an order: identifiers by their bytes, numbers by their numeric reading, texts by their
characters, truth values with `false` first.
-/
namespace DocQuery.Value

def orderFloats? (x y : Float) : Option Ordering :=
  if x == y then some .eq else if x < y then some .lt else if y < x then some .gt else none

def order? (a b : Value) : Option Ordering :=
  match ObjectId.ofValue? a, ObjectId.ofValue? b with
  | some x, some y => some (x.compare y)
  | _, _ =>
    match a, b with
    | str s, str t => some (compare s t)
    | bool s, bool t => some (compare s t)
    | _, _ =>
      match a.number?, b.number? with
      | some x, some y => orderFloats? x y
      | _, _ => none

/-- The place of a kind among the kinds: `null`, numbers, texts, objects, arrays, truth values. -/
def kindRank : Value → Nat
  | null => 0
  | int _ => 1
  | float _ => 1
  | str _ => 2
  | obj _ => 3
  | arr _ => 4
  | bool _ => 5

/-- The order used for sorting: what is missing comes first, kinds follow their rank. -/
def sortOrder (a b : Option Value) : Ordering :=
  match a, b with
  | none, none => .eq
  | none, some _ => .lt
  | some _, none => .gt
  | some x, some y => (x.order? y).getD (compare x.kindRank y.kindRank)

end DocQuery.Value
