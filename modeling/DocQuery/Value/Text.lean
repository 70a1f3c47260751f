import DocQuery.Value
import DocQuery.Decimal

/-!
# Compact text of values

No blanks between tokens, characters beyond ASCII as they are; quotes, backslashes and control characters escaped.
-/
namespace DocQuery

namespace Text

def hexDigit (n : Nat) : Char := if n < 10 then Char.ofNat (48 + n) else Char.ofNat (87 + n)

def escapeChar (c : Char) : List Char :=
  if c = '"' then ['\\', '"']
  else if c = '\\' then ['\\', '\\']
  else if c = '\x08' then ['\\', 'b']
  else if c = '\x0c' then ['\\', 'f']
  else if c = '\n' then ['\\', 'n']
  else if c = '\r' then ['\\', 'r']
  else if c = '\t' then ['\\', 't']
  else if c.toNat < 0x20 then ['\\', 'u', '0', '0', hexDigit (c.toNat / 16), hexDigit (c.toNat % 16)]
  else [c]

def quote (s : String) : String := String.ofList ('"' :: s.toList.flatMap escapeChar ++ ['"'])

end Text

namespace Value

/-- Floats are written positionally from `0.00001` up to sixteen digits before the point. -/
def floatLayout : Decimal.Layout := ⟨-5, 15⟩

mutual

def text : Value → String
  | null => "null"
  | bool b => if b then "true" else "false"
  | int n => toString n
  | float x => floatLayout.writeFloat x
  | str s => Text.quote s
  | arr xs => "[" ++ textItems xs ++ "]"
  | obj fs => "\x7b" ++ textFields fs ++ "\x7d"

def textItems : List Value → String
  | [] => ""
  | [x] => x.text
  | x :: xs => x.text ++ "," ++ textItems xs

def textFields : List (String × Value) → String
  | [] => ""
  | [(k, v)] => Text.quote k ++ ":" ++ v.text
  | (k, v) :: r => Text.quote k ++ ":" ++ v.text ++ "," ++ textFields r

end

end Value

end DocQuery
