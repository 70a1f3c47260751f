/-!
# Ranges of code points

A set of characters as sorted ranges, written as hexadecimal numbers and pairs of them: `30-39 5f`.
-/
namespace DocQuery.Unicode

def hexNumber (s : String) : Nat :=
  s.toList.foldl (fun n c => n * 16 + (if c.isDigit then c.toNat - 48 else c.toNat - 87)) 0

/-- Sorted ranges of code points, ends included. -/
structure Ranges where
  spans : Array (Nat × Nat)

def Ranges.span (s : String) : Nat × Nat :=
  match s.splitOn "-" with
  | [lo, hi] => (hexNumber lo, hexNumber hi)
  | _ => (hexNumber s, hexNumber s)

def Ranges.ofLines (lines : List String) : Ranges :=
  ⟨(lines.flatMap fun l => l.splitOn.map Ranges.span).toArray⟩

/-- Whether a code point lies in a range between two positions, by halving. -/
def Ranges.search (r : Ranges) (n : Nat) : Nat → Nat → Nat → Bool
  | 0, _, _ => false
  | fuel + 1, lo, hi =>
    if lo < hi then
      let middle := (lo + hi) / 2
      match r.spans[middle]? with
      | some (first, last) =>
        if n < first then r.search n fuel lo middle
        else if last < n then r.search n fuel (middle + 1) hi
        else true
      | none => false
    else false

def Ranges.contains (r : Ranges) (c : Char) : Bool := r.search c.toNat 16 0 r.spans.size

end DocQuery.Unicode
