import DocQuery.Toml
import DocQuery.Value.Reader

/-!
# Reading configuration texts

Lines with keys and values under headers of tables.  Values are texts of four forms, numbers, truth values, dates,
arrays over several lines and tables on one line.
-/
namespace DocQuery.Toml

def blanks : List Char → List Char
  | c :: r => if c = ' ' ∨ c = '\t' then blanks r else c :: r
  | [] => []

def lineEnd? : List Char → Option (List Char)
  | '\n' :: r => some r
  | '\x0d' :: '\n' :: r => some r
  | _ => none

/-- Control characters have no place in texts and comments, the tabulator apart. -/
def isControl (c : Char) : Bool := (c.toNat < 0x20 && c != '\t') || c.toNat == 0x7F

def comment? : List Char → Option (List Char)
  | [] => some []
  | '\n' :: r => some ('\n' :: r)
  | '\x0d' :: '\n' :: r => some ('\n' :: r)
  | c :: r => if isControl c then none else comment? r

def trailing? (s : List Char) : Option (List Char) :=
  match blanks s with
  | '#' :: r => comment? r
  | r => some r

def gap? : Nat → List Char → Option (List Char)
  | 0, _ => none
  | fuel + 1, s => do
    let r ← trailing? s
    match lineEnd? r with
    | some r => gap? fuel r
    | none => return r

def codePoint? (digits : Nat) (s : List Char) : Option (Char × List Char) :=
  let ds := s.take digits
  if ds.length ≠ digits then none
  else do
    let n ← ds.foldlM (fun n c => (Value.Reader.hexValue? c).map fun d => n * 16 + d) 0
    if n.isValidChar then return (Char.ofNat n, s.drop digits) else none

def escape? : List Char → Option (Char × List Char)
  | 'b' :: r => some ('\x08', r)
  | 't' :: r => some ('\t', r)
  | 'n' :: r => some ('\n', r)
  | 'f' :: r => some ('\x0c', r)
  | 'r' :: r => some ('\r', r)
  | '"' :: r => some ('"', r)
  | '\\' :: r => some ('\\', r)
  | 'u' :: r => codePoint? 4 r
  | 'U' :: r => codePoint? 8 r
  | _ => none

/-- The rest of a text on one line up to its quote; `escapes` tells whether backslashes have a meaning. -/
def lineText? (quote : Char) (escapes : Bool) : Nat → List Char → List Char → Option (String × List Char)
  | 0, _, _ => none
  | _ + 1, [], _ => none
  | fuel + 1, c :: r, acc =>
    if c = quote then some (String.ofList acc.reverse, r)
    else if escapes ∧ c = '\\' then
      match escape? r with
      | some (d, r) => lineText? quote escapes fuel r (d :: acc)
      | none => none
    else if isControl c then none
    else lineText? quote escapes fuel r (c :: acc)

def continuation? (s : List Char) : Option (List Char) :=
  (lineEnd? (blanks s)).map fun r => r.dropWhile fun c => c = ' ' ∨ c = '\t' ∨ c = '\n' ∨ c = '\x0d'

/-- The rest of a text over several lines up to three quotes; up to two more quotes before them belong to it. -/
def blockText? (quote : Char) (escapes : Bool) : Nat → List Char → List Char → Option (String × List Char)
  | 0, _, _ => none
  | _ + 1, [], _ => none
  | fuel + 1, c :: r, acc =>
    if c = quote ∧ r.take 2 = [quote, quote] then
      let rest := r.drop 2
      let more := (rest.take 2).takeWhile (· == quote)
      some (String.ofList (more ++ acc).reverse, rest.drop more.length)
    else if escapes ∧ c = '\\' then
      match continuation? r with
      | some r => blockText? quote escapes fuel r acc
      | none =>
        match escape? r with
        | some (d, r) => blockText? quote escapes fuel r (d :: acc)
        | none => none
    else match lineEnd? (c :: r) with
      | some r => blockText? quote escapes fuel r ('\n' :: acc)
      | none => if isControl c then none else blockText? quote escapes fuel r (c :: acc)

def text? (s : List Char) : Option (String × List Char) :=
  let block (quote : Char) (escapes : Bool) (r : List Char) : Option (String × List Char) :=
    let r := (lineEnd? r).getD r
    blockText? quote escapes (r.length + 1) r []
  match s with
  | '"' :: '"' :: '"' :: r => block '"' true r
  | '\'' :: '\'' :: '\'' :: r => block '\'' false r
  | '"' :: r => lineText? '"' true (r.length + 1) r []
  | '\'' :: r => lineText? '\'' false (r.length + 1) r []
  | _ => none

def isBare (c : Char) : Bool := c.isAlphanum || c == '_' || c == '-'

def keyPart? (s : List Char) : Option (String × List Char) :=
  match s with
  | '"' :: r => lineText? '"' true (r.length + 1) r []
  | '\'' :: r => lineText? '\'' false (r.length + 1) r []
  | _ =>
    let bare := s.takeWhile isBare
    if bare.isEmpty then none else some (String.ofList bare, s.dropWhile isBare)

def key? : Nat → List Char → Option (List String × List Char)
  | 0, _ => none
  | fuel + 1, s => do
    let (part, r) ← keyPart? (blanks s)
    match blanks r with
    | '.' :: r =>
      let (parts, r) ← key? fuel r
      return (part :: parts, r)
    | r => return ([part], r)

/-- Digits with single underscores between them, without the underscores. -/
def digits? (isDigit : Char → Bool) : List Char → Option (List Char)
  | [] => none
  | [c] => if isDigit c then some [c] else none
  | c :: '_' :: r => if isDigit c then (digits? isDigit r).map (c :: ·) else none
  | c :: r => if isDigit c then (digits? isDigit r).map (c :: ·) else none

def number (base : Nat) (ds : List Char) : Nat :=
  ds.foldl (fun n c => n * base + (Value.Reader.hexValue? c).getD 0) 0

def whole? (n : Int) : Option Value := if -Int.pow 2 63 ≤ n ∧ n < Int.pow 2 63 then some (.int n) else none

def sign : List Char → Bool × List Char
  | '-' :: r => (true, r)
  | '+' :: r => (false, r)
  | r => (false, r)

def decimal? (s : List Char) : Option (List Char) := do
  let ds ← digits? Char.isDigit s
  match ds with
  | '0' :: _ :: _ => none
  | ds => return ds

/-- A power of ten within bounds beyond which a number of so many digits is zero or infinite. -/
def bounded (digits : Nat) (power : Int) : Int := max (-(400 + digits : Int)) (min power 400)

/-- A number from its token; one that is too large has to be negative to stand for `null`. -/
def number? (token : List Char) : Option Value :=
  match token with
  | '0' :: 'x' :: r => (digits? (fun c => (Value.Reader.hexValue? c).isSome) r).bind fun ds => whole? (number 16 ds)
  | '0' :: 'o' :: r => (digits? (fun c => '0' ≤ c && c ≤ '7') r).bind fun ds => whole? (number 8 ds)
  | '0' :: 'b' :: r => (digits? (fun c => c == '0' || c == '1') r).bind fun ds => whole? (number 2 ds)
  | _ =>
    let (negative, r) := sign token
    let signed (x : Float) : Value := Value.ofFloat (if negative then -x else x)
    if r = ['i', 'n', 'f'] ∨ r = ['n', 'a', 'n'] then some .null
    else
      let isMark (c : Char) : Bool := c == 'e' || c == 'E'
      let significand := r.takeWhile fun c => !isMark c
      let whole := significand.takeWhile (· != '.')
      match decimal? whole, significand.dropWhile (· != '.'), r.dropWhile fun c => !isMark c with
      | some ds, [], [] => whole? (if negative then -(number 10 ds : Int) else number 10 ds)
      | some ds, point, exponent => do
        let fraction ← match point with
          | [] => some []
          | _ :: f => digits? Char.isDigit f
        let (down, e) ← match exponent with
          | [] => some (false, ['0'])
          | _ :: e => (digits? Char.isDigit (sign e).2).map fun ds => ((sign e).1, ds)
        let digits := ds ++ fraction
        let power := bounded digits.length ((if down then -(number 10 e : Int) else number 10 e) - fraction.length)
        let m := number 10 digits
        let x := if m = 0 then 0 else Float.ofScientific m (power < 0) power.natAbs
        if x.isInf && !negative then none else return signed x
      | none, _, _ => none

def daysOf (year month : Nat) : Nat :=
  if month = 2 then (if year % 4 = 0 ∧ (year % 100 ≠ 0 ∨ year % 400 = 0) then 29 else 28)
  else if month = 4 ∨ month = 6 ∨ month = 9 ∨ month = 11 then 30 else 31

def fixed? (digits : Nat) (s : List Char) : Option (Nat × List Char) :=
  let ds := s.take digits
  if ds.length = digits ∧ ds.all Char.isDigit then some (number 10 ds, s.drop digits) else none

def expect? (c : Char) : List Char → Option (List Char)
  | d :: r => if c = d then some r else none
  | [] => none

def date? (s : List Char) : Option (List Char × List Char) := do
  let (year, r) ← fixed? 4 s
  let (month, r) ← fixed? 2 (← expect? '-' r)
  let (day, r) ← fixed? 2 (← expect? '-' r)
  if 1 ≤ month ∧ month ≤ 12 ∧ 1 ≤ day ∧ day ≤ daysOf year month then return (s.take 10, r) else none

/-- Fractions of a second with nine digits at most and no zeros at the end. -/
def fraction (ds : List Char) : List Char :=
  match ((ds.take 9).reverse.dropWhile (· == '0')).reverse with
  | [] => []
  | ds => '.' :: ds

def time? (s : List Char) : Option (List Char × List Char) := do
  let (hour, r) ← fixed? 2 s
  let (minute, r) ← fixed? 2 (← expect? ':' r)
  let (second, r) ← fixed? 2 (← expect? ':' r)
  if 24 ≤ hour ∨ 60 ≤ minute ∨ 61 ≤ second then none
  else match r with
    | '.' :: r =>
      let ds := r.takeWhile Char.isDigit
      if ds.isEmpty then none else return (s.take 8 ++ fraction ds, r.dropWhile Char.isDigit)
    | r => return (s.take 8, r)

/-- The offset of a time from the common one; that of zero is written with a plus. -/
def offset? (s : List Char) : Option (List Char) :=
  match s with
  | [] => some []
  | ['Z'] => some ['Z']
  | ['z'] => some ['Z']
  | c :: r => do
    if c ≠ '+' ∧ c ≠ '-' then none
    let (hour, t) ← fixed? 2 r
    let (minute, t) ← fixed? 2 (← expect? ':' t)
    if !t.isEmpty ∨ 24 ≤ hour ∨ 60 ≤ minute then none
    else return (if hour = 0 ∧ minute = 0 then '+' :: r else s)

/-- A date, a time or both from a token, under the key that marks them. -/
def moment? (token : List Char) : Option Value :=
  let marked (s : List Char) : Value := .single "$__toml_private_datetime" (.str (String.ofList s))
  match date? token with
  | some (d, []) => some (marked d)
  | some (d, c :: r) =>
    if c = 'T' ∨ c = 't' ∨ c = ' ' then do
      let (t, r) ← time? r
      return marked (d ++ 'T' :: t ++ (← offset? r))
    else none
  | none =>
    match time? token with
    | some (t, []) => some (marked t)
    | _ => none

def isTokenChar (c : Char) : Bool := c.isAlphanum || c == '_' || c == '+' || c == '-' || c == '.' || c == ':'

/-- The token at the start of a text; a date and a time may have a blank between them. -/
def token (s : List Char) : List Char × List Char :=
  let first := s.takeWhile isTokenChar
  let rest := s.dropWhile isTokenChar
  match date? first, rest with
  | some (_, []), ' ' :: d :: r =>
    if d.isDigit then
      let second := (d :: r).takeWhile isTokenChar
      (first ++ ' ' :: second, (d :: r).dropWhile isTokenChar)
    else (first, rest)
  | _, _ => (first, rest)

def scalar? (s : List Char) : Option (Value × List Char) :=
  let (t, r) := token s
  match t with
  | ['t', 'r', 'u', 'e'] => some (.bool true, r)
  | ['f', 'a', 'l', 's', 'e'] => some (.bool false, r)
  | t => ((moment? t).or (number? t)).map fun v => (v, r)

mutual

/-- A value and the rest behind it; the first argument bounds the number of steps. -/
def value? : Nat → List Char → Option (Value × List Char)
  | 0, _ => none
  | fuel + 1, s =>
    match s with
    | '[' :: r => items? fuel r []
    | '\x7b' :: r =>
      match blanks r with
      | '\x7d' :: r => some (.obj [], r)
      | r => pairs? fuel r []
    | '"' :: _ => (text? s).map fun (t, r) => (.str t, r)
    | '\'' :: _ => (text? s).map fun (t, r) => (.str t, r)
    | s => scalar? s

/-- The items of an array up to its closing bracket; a comma may stand behind the last one. -/
def items? : Nat → List Char → List Value → Option (Value × List Char)
  | 0, _, _ => none
  | fuel + 1, s, acc => do
    match ← gap? (s.length + 1) s with
    | ']' :: r => return (.arr acc.reverse, r)
    | s =>
      let (v, r) ← value? fuel s
      match ← gap? (r.length + 1) r with
      | ',' :: r => items? fuel r (v :: acc)
      | ']' :: r => return (.arr (v :: acc).reverse, r)
      | _ => none

def pairs? : Nat → List Char → Entries → Option (Value × List Char)
  | 0, _, _ => none
  | fuel + 1, s, es => do
    let (key, r) ← key? (s.length + 1) s
    let (v, r) ← value? fuel (blanks (← expect? '=' r))
    let es ← assign (.leaf v) key es
    match blanks r with
    | ',' :: r => pairs? fuel r es
    | '\x7d' :: r => return (.obj (entryValues es), r)
    | _ => none

end

def endOfLine? (s : List Char) : Option (List Char) := do
  match ← trailing? s with
  | [] => return []
  | r => lineEnd? r

/-- The lines of a text, from the table at a path on; the last argument holds what has been read. -/
def lines? : Nat → List String → List Char → Entries → Option Entries
  | 0, _, _, _ => none
  | fuel + 1, path, s, es => do
    match blanks s with
    | [] => return es
    | '[' :: '[' :: r =>
      let (key, r) ← key? (r.length + 1) r
      let r ← endOfLine? (← expect? ']' (← expect? ']' r))
      let es ← withTable (startElement (key.getLastD "")) key.dropLast es
      lines? fuel key r es
    | '[' :: r =>
      let (key, r) ← key? (r.length + 1) r
      let r ← endOfLine? (← expect? ']' r)
      let es ← withTable (defineTable (key.getLastD "")) key.dropLast es
      lines? fuel key r es
    | c :: r =>
      if c = '#' ∨ c = '\n' ∨ c = '\x0d' then lines? fuel path (← endOfLine? (c :: r)) es
      else
        let (key, r) ← key? (r.length + 2) (c :: r)
        let r := blanks (← expect? '=' r)
        let (v, r) ← value? (r.length + 1) r
        let r ← endOfLine? r
        lines? fuel path r (← withTable (assign (.leaf v) key) path es)

def parse? (s : String) : Option Fields :=
  let chars := match s.toList with
    | '\ufeff' :: r => r
    | r => r
  (lines? (chars.length + 1) [] chars []).map entryValues

end DocQuery.Toml
