/-!
# Floats and decimals

The decimal text of a float, and remainders of floats without rounding.  Both go by the exact binary fraction that a
float is.
-/
namespace DocQuery.Decimal

/-!
## The fewest decimal digits that read back

A positive binary fraction `m · 2^e` stands for every real number that rounds to it: an interval around it whose ends
belong to it when `m` is even.  `shortest` finds the least number of decimal digits with a point in that interval, and
of the points with so many digits the one nearest to the value; of two equally near ones that with the even last digit.
-/

/-- A positive decimal number: its digits as one number, times a power of ten. -/
structure Digits where
  /-- the digits, the first of them not zero -/
  digits : Nat
  exponent : Int
  deriving Repr, DecidableEq

/-- A positive value with the interval that rounds to it, as numerators over one denominator. -/
structure Span where
  low : Nat
  value : Nat
  high : Nat
  denominator : Nat
  /-- whether the ends belong to the interval -/
  closed : Bool

/-- The interval around `m · 2^e`; below a power of two the neighbours lie twice as close. -/
def Span.ofBinary (m : Nat) (e : Int) (powerOfTwo : Bool) : Span :=
  let below := if powerOfTwo then 1 else 2
  let up := Nat.pow 2 (e - 2).toNat
  { low := (4 * m - below) * up, value := 4 * m * up, high := (4 * m + 2) * up
    denominator := Nat.pow 2 (2 - e).toNat, closed := m % 2 == 0 }

def Span.holds (s : Span) (d : Digits) : Bool :=
  let point := d.digits * Nat.pow 10 d.exponent.toNat * s.denominator
  let scale := Nat.pow 10 (-d.exponent).toNat
  if s.closed then s.low * scale ≤ point && point ≤ s.high * scale
  else s.low * scale < point && point < s.high * scale

def Span.floorAt (s : Span) (exponent : Int) : Nat :=
  s.value * Nat.pow 10 (-exponent).toNat / (s.denominator * Nat.pow 10 exponent.toNat)

/-- The neighbour of the value on the grid of `10^exponent` which the interval holds; the nearer one of two. -/
def Span.onGrid (s : Span) (exponent : Int) : Option Digits :=
  let n := s.floorAt exponent
  let lower : Digits := ⟨n, exponent⟩
  let upper : Digits := ⟨n + 1, exponent⟩
  let twice := 2 * s.value * Nat.pow 10 (-exponent).toNat
  let middle := (2 * n + 1) * s.denominator * Nat.pow 10 exponent.toNat
  match s.holds lower && n != 0, s.holds upper with
  | true, true => some (if twice < middle || (twice == middle && n % 2 == 0) then lower else upper)
  | true, false => some lower
  | false, true => some upper
  | false, false => none

def Span.leading (s : Span) : Nat → Int → Int
  | 0, e => e
  | fuel + 1, e => if s.floorAt e = 0 then s.leading fuel (e - 1) else e

def Span.search (s : Span) : Nat → Int → Digits
  | 0, e => ⟨s.floorAt e, e⟩
  | fuel + 1, e =>
    match s.onGrid e with
    | some d => d
    | none => s.search fuel (e - 1)

/-- Moves trailing zeros of the digits into the exponent. -/
def Digits.strip : Nat → Digits → Digits
  | 0, d => d
  | fuel + 1, d => if d.digits % 10 = 0 ∧ d.digits ≠ 0 then strip fuel ⟨d.digits / 10, d.exponent + 1⟩ else d

/-- An upper bound for the power of ten of the leading digit of `m · 2^e`: the decimal logarithm of two lies between
`0.300` and `0.302`. -/
def leadingBound (m : Nat) (e : Int) : Int :=
  let bits := (Nat.log2 m : Int) + 1 + e
  bits * (if 0 ≤ bits then 302 else 300) / 1000 + 1

/-- The shortest decimal in the interval of `m · 2^e`; a binary fraction of 53 bits needs at most seventeen digits. -/
def shortest (m : Nat) (e : Int) (powerOfTwo : Bool) : Digits :=
  let s := Span.ofBinary m e powerOfTwo
  let top := s.leading 40 (leadingBound m e)
  (s.search 17 top).strip 40

def ofFloat? (x : Float) : Option Digits :=
  let bits : Nat := x.toBits.toNat
  let mantissa : Nat := bits % Nat.pow 2 52
  let exponent : Nat := bits / Nat.pow 2 52 % Nat.pow 2 11
  if exponent = 0 then
    if mantissa = 0 then none else some (shortest mantissa (-1074) false)
  else some (shortest (mantissa + Nat.pow 2 52) ((exponent : Int) - 1075) (mantissa == 0 && exponent != 1))

/-!
## Decimal text

How the digits of a number are laid out: positionally while the power of ten of the leading digit is within bounds,
with an exponent beyond them.
-/

/-- The bounds of the positional form, on the power of ten of the leading digit. -/
structure Layout where
  least : Int
  most : Int

def zeros (n : Nat) : List Char := List.replicate n '0'

/-- Digits in positional form, with a decimal point and at least one digit behind it. -/
def positional (digits : List Char) (leading : Int) : List Char :=
  if leading < 0 then '0' :: '.' :: zeros (-leading - 1).toNat ++ digits
  else
    let whole := leading.toNat + 1
    let fraction := digits.drop whole
    digits.take whole ++ zeros (whole - digits.length) ++ '.' :: (if fraction.isEmpty then ['0'] else fraction)

/-- Digits in exponent form: one digit before the point, the sign of the exponent always written. -/
def exponential (digits : List Char) (leading : Int) : List Char :=
  let fraction := digits.drop 1
  digits.take 1 ++ (if fraction.isEmpty then [] else '.' :: fraction) ++
    'e' :: (if leading < 0 then '-' else '+') :: (toString leading.natAbs).toList

def Layout.write (l : Layout) (d : Digits) : String :=
  let digits := (toString d.digits).toList
  let leading := d.exponent + digits.length - 1
  String.ofList <|
    if l.least ≤ leading && leading ≤ l.most then positional digits leading else exponential digits leading

/-- The text of a finite float; zero keeps its sign. -/
def Layout.writeFloat (l : Layout) (x : Float) : String :=
  let sign := if x.toBits.toNat / Nat.pow 2 63 = 1 then "-" else ""
  sign ++ match ofFloat? x with
    | none => "0.0"
    | some d => l.write d

/-!
## Whole remainders of floats

The remainder of a division with the sign of the dividend, cut to a whole number.  It is computed exactly on the binary
fractions, as a float cannot hold the quotient.
-/

def magnitude (x : Float) : Nat × Int :=
  let bits : Nat := x.toBits.toNat
  let mantissa : Nat := bits % Nat.pow 2 52
  let exponent : Nat := bits / Nat.pow 2 52 % Nat.pow 2 11
  if exponent = 0 then (mantissa, -1074) else (mantissa + Nat.pow 2 52, (exponent : Int) - 1075)

/-- The whole part of the remainder of `m · 2^e` by `n · 2^f`: both are taken over the smaller exponent. -/
def wholeRemainder (m : Nat) (e : Int) (n : Nat) (f : Int) : Nat :=
  let low := min e f
  let rest := (m * Nat.pow 2 (e - low).toNat) % (n * Nat.pow 2 (f - low).toNat)
  if 0 ≤ low then rest * Nat.pow 2 low.toNat else rest / Nat.pow 2 (-low).toNat

/-- The remainder of two finite floats cut to a whole number; by zero it is no number. -/
def truncRem (x y : Float) : Float :=
  let (m, e) := magnitude x
  let (n, f) := magnitude y
  if n = 0 then 0 / 0
  else
    let r := Float.ofNat (wholeRemainder m e n f)
    if x < 0 then -r else r

end DocQuery.Decimal
