import DocQuery.Value

/-!
# Reading values from text

Accepts one value with blanks around its tokens.  A key that occurs twice keeps its first place and its last value.  A
literal without point and exponent is a whole number while it fits 64 bits; `-0` and all other literals are floats.
-/
namespace DocQuery.Value.Reader

def skip : List Char → List Char
  | [] => []
  | c :: r => if c = ' ' || c = '\t' || c = '\n' || c = '\r' then skip r else c :: r

def hexValue? (c : Char) : Option Nat :=
  if c.isDigit then some (c.toNat - 48)
  else if 'a' ≤ c ∧ c ≤ 'f' then some (c.toNat - 87)
  else if 'A' ≤ c ∧ c ≤ 'F' then some (c.toNat - 55)
  else none

def unit? (a b c d : Char) : Option Nat := do
  return (← hexValue? a) * 4096 + (← hexValue? b) * 256 + (← hexValue? c) * 16 + (← hexValue? d)

def quoted : List Char → List Char → Option (String × List Char)
  | [], _ => none
  | '"' :: r, acc => some (String.ofList acc.reverse, r)
  | '\\' :: 'u' :: a :: b :: c :: d :: '\\' :: 'u' :: e :: f :: g :: h :: r, acc =>
    match unit? a b c d, unit? e f g h with
    | some hi, some lo =>
      if 0xD800 ≤ hi && hi < 0xDC00 then
        if 0xDC00 ≤ lo && lo < 0xE000 then
          quoted r (Char.ofNat ((hi - 0xD800) * 0x400 + (lo - 0xDC00) + 0x10000) :: acc)
        else none
      else if 0xDC00 ≤ hi && hi < 0xE000 then none
      else quoted ('\\' :: 'u' :: e :: f :: g :: h :: r) (Char.ofNat hi :: acc)
    | _, _ => none
  | '\\' :: 'u' :: a :: b :: c :: d :: r, acc =>
    match unit? a b c d with
    | some n => if 0xD800 ≤ n && n < 0xE000 then none else quoted r (Char.ofNat n :: acc)
    | none => none
  | '\\' :: c :: r, acc =>
    match c with
    | '"' => quoted r ('"' :: acc)
    | '\\' => quoted r ('\\' :: acc)
    | '/' => quoted r ('/' :: acc)
    | 'b' => quoted r ('\x08' :: acc)
    | 'f' => quoted r ('\x0c' :: acc)
    | 'n' => quoted r ('\n' :: acc)
    | 'r' => quoted r ('\r' :: acc)
    | 't' => quoted r ('\t' :: acc)
    | _ => none
  | c :: r, acc => if c.toNat < 0x20 then none else quoted r (c :: acc)
  termination_by s => s.length

/-- A significand of at most 64 bits scaled by a power of ten: one rounding for the significand, one for the scaling. -/
def scaled (significand : Nat) (exponent : Int) : Float :=
  let x := Float.ofNat significand
  if 0 ≤ exponent then x * Float.ofScientific 1 false exponent.toNat
  else if -308 ≤ exponent then x / Float.ofScientific 1 false exponent.natAbs
  else (x / Float.ofScientific 1 false 308) / Float.ofScientific 1 false (exponent.natAbs - 308)

/-- Takes digits onto a significand while it stays below `2^64`; the number of digits taken, and of those left out. -/
def takeDigits : List Char → Nat → Nat → Nat → Nat × Nat × Nat
  | [], n, taken, dropped => (n, taken, dropped)
  | c :: r, n, taken, dropped =>
    let next := n * 10 + (c.toNat - 48)
    if dropped = 0 && next < Nat.pow 2 64 then takeDigits r next (taken + 1) 0 else takeDigits r n taken (dropped + 1)

def exponent? (s : List Char) : Option (Int × List Char) :=
  let (negative, r) := match s with
    | '-' :: r => (true, r)
    | '+' :: r => (false, r)
    | r => (false, r)
  let digits := r.takeWhile Char.isDigit
  if digits.isEmpty then none
  else
    let n : Nat := digits.foldl (fun n c => n * 10 + (c.toNat - 48)) 0
    some (if negative then -(n : Int) else n, r.dropWhile Char.isDigit)

def numeral (s : List Char) : Option (Value × List Char) := do
  let (negative, r) := match s with
    | '-' :: r => (true, r)
    | r => (false, r)
  let whole := r.takeWhile Char.isDigit
  if whole.isEmpty || (whole.length > 1 && whole.head? = some '0') then failure
  let r := r.dropWhile Char.isDigit
  let (n, _, dropped) := takeDigits whole 0 0 0
  let signed (x : Float) : Value := float (if negative then -x else x)
  match r with
  | '.' :: r' =>
    let fraction := r'.takeWhile Char.isDigit
    if fraction.isEmpty then failure
    let r'' := r'.dropWhile Char.isDigit
    let (m, taken, _) := if dropped = 0 then takeDigits fraction n 0 0 else (n, 0, 0)
    let base : Int := (dropped : Int) - taken
    match r'' with
    | c :: t =>
      if c = 'e' || c = 'E' then
        let (e, t) ← exponent? t
        return (signed (scaled m (base + e)), t)
      else return (signed (scaled m base), c :: t)
    | [] => return (signed (scaled m base), [])
  | c :: t =>
    if c = 'e' || c = 'E' then
      let (e, t) ← exponent? t
      return (signed (scaled n (dropped + e)), t)
    else return (integral negative n dropped, c :: t)
  | [] => return (integral negative n dropped, [])
where
  /-- A literal of digits only. -/
  integral (negative : Bool) (n dropped : Nat) : Value :=
    if dropped ≠ 0 then float (if negative then -scaled n dropped else scaled n dropped)
    else if negative then
      if n = 0 || n > Nat.pow 2 63 then float (-Float.ofNat n) else int (-(n : Int))
    else int n

mutual

/-- One value and the rest behind it; the first argument bounds the number of steps. -/
def value : Nat → List Char → Option (Value × List Char)
  | 0, _ => none
  | fuel + 1, s =>
    match skip s with
    | '"' :: r => (quoted r []).map fun (t, r) => (str t, r)
    | '[' :: r =>
      match skip r with
      | ']' :: r => some (arr [], r)
      | r => items fuel r []
    | '\x7b' :: r =>
      match skip r with
      | '\x7d' :: r => some (obj [], r)
      | r => fields fuel r []
    | 'n' :: 'u' :: 'l' :: 'l' :: r => some (null, r)
    | 't' :: 'r' :: 'u' :: 'e' :: r => some (bool true, r)
    | 'f' :: 'a' :: 'l' :: 's' :: 'e' :: r => some (bool false, r)
    | r => numeral r

def items : Nat → List Char → List Value → Option (Value × List Char)
  | 0, _, _ => none
  | fuel + 1, s, acc =>
    match value fuel s with
    | none => none
    | some (v, r) =>
      match skip r with
      | ',' :: r => items fuel r (v :: acc)
      | ']' :: r => some (arr (v :: acc).reverse, r)
      | _ => none

def fields : Nat → List Char → Fields → Option (Value × List Char)
  | 0, _, _ => none
  | fuel + 1, s, acc =>
    match skip s with
    | '"' :: r =>
      match quoted r [] with
      | none => none
      | some (k, r) =>
        match skip r with
        | ':' :: r =>
          match value fuel r with
          | none => none
          | some (v, r) =>
            match skip r with
            | ',' :: r => fields fuel r (Keyed.set acc k v)
            | '\x7d' :: r => some (obj (Keyed.set acc k v), r)
            | _ => none
        | _ => none
    | _ => none

end

end DocQuery.Value.Reader

namespace DocQuery

/-- Reads one value; `none` if the text is not one. -/
def Value.ofText? (s : String) : Option Value :=
  let chars := s.toList
  match Value.Reader.value (chars.length + 1) chars with
  | some (v, r) => if (Value.Reader.skip r).isEmpty then some v else none
  | none => none

end DocQuery
