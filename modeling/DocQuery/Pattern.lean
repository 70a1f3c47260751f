import DocQuery.Pattern.CharSet

/-!
# Patterns — matching text

A pattern stands for a set of pieces of text.  `ends p text i` holds the positions where a piece that starts at `i` and
matches `p` can end; so a text matches when some position has an end.  Every position is met at most once per
repetition, hence the search ends.
-/
namespace DocQuery

/-- A condition on a position, which consumes nothing. -/
inductive Anchor where
  | start
  | stop
  | lineStart
  | lineStop
  /-- the start of a line, where a carriage return also ends lines -/
  | crlfStart
  /-- the end of a line, where a carriage return also ends lines -/
  | crlfStop
  | edge (word : CharSet)
  | inside (word : CharSet)
  | wordStart (word : CharSet)
  | wordStop (word : CharSet)
  | halfStart (word : CharSet)
  | halfStop (word : CharSet)

inductive Pattern where
  | empty
  | one (set : CharSet)
  | anchor (a : Anchor)
  | seq (a b : Pattern)
  | alt (a b : Pattern)
  /-- between `least` and `most` repetitions; no bound without `most` -/
  | times (p : Pattern) (least : Nat) (most : Option Nat)

namespace Anchor

def before (text : Array Char) (i : Nat) (f : Char → Bool) : Bool :=
  match i with
  | 0 => false
  | j + 1 => (text[j]?).any f

def behind (text : Array Char) (i : Nat) (f : Char → Bool) : Bool := (text[i]?).any f

def holds (text : Array Char) (i : Nat) : Anchor → Bool
  | start => i == 0
  | stop => i == text.size
  | lineStart => i == 0 || before text i (· == '\n')
  | lineStop => i == text.size || behind text i (· == '\n')
  | crlfStart => i == 0 || before text i (· == '\n') || (before text i (· == '\r') && !behind text i (· == '\n'))
  | crlfStop =>
    i == text.size || behind text i (· == '\r') || (behind text i (· == '\n') && !before text i (· == '\r'))
  | edge w => before text i w.contains != behind text i w.contains
  | inside w => before text i w.contains == behind text i w.contains
  | wordStart w => !before text i w.contains && behind text i w.contains
  | wordStop w => before text i w.contains && !behind text i w.contains
  | halfStart w => !before text i w.contains
  | halfStop w => !behind text i w.contains

end Anchor

namespace Pattern

def stepAll (step : Nat → List Nat) (positions : List Nat) : List Nat := (positions.flatMap step).eraseDups

/-- Exactly so many repetitions; a set of positions that does not change any more is final. -/
def iterate (step : Nat → List Nat) : Nat → List Nat → List Nat
  | 0, positions => positions
  | n + 1, positions =>
    let next := stepAll step positions
    if next == positions then positions else iterate step n next

/-- At most so many repetitions: the positions seen, and those met last. -/
def grow (step : Nat → List Nat) : Nat → List Nat → List Nat → List Nat
  | 0, seen, _ => seen
  | n + 1, seen, fresh =>
    match (stepAll step fresh).filter fun i => !seen.contains i with
    | [] => seen
    | new => grow step n (seen ++ new) new

/-- The positions where a match that starts at `i` can end. -/
def ends (text : Array Char) : Pattern → Nat → List Nat
  | empty, i => [i]
  | one s, i =>
    match text[i]? with
    | some c => if s.contains c then [i + 1] else []
    | none => []
  | anchor a, i => if a.holds text i then [i] else []
  | seq a b, i => stepAll (fun j => ends text b j) (ends text a i)
  | alt a b, i => (ends text a i ++ ends text b i).eraseDups
  | times p least most, i =>
    let step := fun j => ends text p j
    let reached := iterate step least [i]
    let more := match most with
      | some m => m - least
      | none => text.size + 1
    grow step more reached reached

def isMatch (p : Pattern) (s : String) : Bool :=
  let text := s.toList.toArray
  (List.range (text.size + 1)).any fun i => !(ends text p i).isEmpty

end Pattern

end DocQuery
