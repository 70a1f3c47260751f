import DocQuery.Fault

/-!
# Native identifiers

An identifier of the store is twelve bytes: four with the seconds since the epoch, high byte first, and eight more.  In
text it is 24 digits of base sixteen; in a document it is an object with the single field `$oid`.  `exposeId` and
`flattenIds` replace identifiers in values.
-/
namespace DocQuery

structure ObjectId where
  bytes : List UInt8
  length_bytes : bytes.length = 12
  deriving DecidableEq

namespace ObjectId

def fieldKey : String := "$oid"

def digit? (c : Char) : Option Nat :=
  if '0' ≤ c ∧ c ≤ '9' then some (c.toNat - 48)
  else if 'a' ≤ c ∧ c ≤ 'f' then some (c.toNat - 87)
  else if 'A' ≤ c ∧ c ≤ 'F' then some (c.toNat - 55)
  else none

def bytesOfDigits? : List Char → Option (List UInt8)
  | [] => some []
  | [_] => none
  | hi :: lo :: r =>
    match digit? hi, digit? lo, bytesOfDigits? r with
    | some h, some l, some bs => some (UInt8.ofNat (h * 16 + l) :: bs)
    | _, _, _ => none

def digitsOfBytes : List UInt8 → List Char
  | [] => []
  | b :: r => Text.hexDigit (b.toNat / 16) :: Text.hexDigit (b.toNat % 16) :: digitsOfBytes r

def ofBytes? (bytes : List UInt8) : Option ObjectId :=
  if h : bytes.length = 12 then some ⟨bytes, h⟩ else none

/-- Reads an identifier; its digits may have either case. -/
def ofText? (s : String) : Option ObjectId := (bytesOfDigits? s.toList).bind ofBytes?

def parse (s : String) : Except Fault ObjectId :=
  match ofText? s with
  | some id => .ok id
  | none => .error (.query (.objectId s))

def text (id : ObjectId) : String := String.ofList (digitsOfBytes id.bytes)

def bigEndian (bytes : List UInt8) : Nat := bytes.foldl (fun n b => n * 256 + b.toNat) 0

def seconds (id : ObjectId) : Nat := bigEndian (id.bytes.take 4)

def toValue (id : ObjectId) : Value := .obj [(fieldKey, .str id.text)]

def ofValue? : Value → Option ObjectId
  | .obj [(key, .str s)] => if key = fieldKey then ofText? s else none
  | _ => none

def compareBytes : List UInt8 → List UInt8 → Ordering
  | [], [] => .eq
  | [], _ :: _ => .lt
  | _ :: _, [] => .gt
  | a :: as, b :: bs => if a < b then .lt else if b < a then .gt else compareBytes as bs

def compare (a b : ObjectId) : Ordering := compareBytes a.bytes b.bytes

/-- Twelve bytes from a time and a number: the time in the first four, the number in the last eight. -/
def stamped (seconds serial : Nat) : ObjectId :=
  { bytes := [seconds >>> 24, seconds >>> 16, seconds >>> 8, seconds, serial >>> 56, serial >>> 48,
      serial >>> 40, serial >>> 32, serial >>> 24, serial >>> 16, serial >>> 8, serial].map UInt8.ofNat
    length_bytes := rfl }

end ObjectId

inductive DocumentId where
  | native (id : ObjectId)
  | int (n : Int)
  | str (s : String)
  deriving DecidableEq

namespace DocumentId

def ofValue? (v : Value) : Option DocumentId :=
  match ObjectId.ofValue? v with
  | some id => some (native id)
  | none =>
    match v with
    | .int _ => v.signed?.map int
    | .str s => some (str s)
    | _ => none

def toValue : DocumentId → Value
  | native id => id.toValue
  | int n => .int n
  | str s => .str s

/-- An identifier as callers see it: a native one is its text. -/
def toPlain : DocumentId → Value
  | native id => .str id.text
  | int n => .int n
  | str s => .str s

end DocumentId

namespace Value

/-- Moves a native `_id` of a row into a plain field `id`; rows without one stay as they are. -/
def exposeId (row : Value) : Value :=
  match row with
  | obj fs =>
    match (Keyed.get? fs "_id").bind ObjectId.ofValue? with
    | some id => obj (Keyed.set (Keyed.swapErase fs "_id") "id" (str id.text))
    | none => row
  | _ => row

mutual

/-- Replaces every native identifier in a value by its text. -/
def flattenIds : Value → Value
  | obj fs =>
    match ObjectId.ofValue? (obj fs) with
    | some id => str id.text
    | none => obj (flattenFields fs)
  | arr xs => arr (flattenItems xs)
  | v => v

def flattenItems : List Value → List Value
  | [] => []
  | x :: xs => x.flattenIds :: flattenItems xs

def flattenFields : List (String × Value) → List (String × Value)
  | [] => []
  | (k, v) :: r => (k, v.flattenIds) :: flattenFields r

end

end Value

end DocQuery
