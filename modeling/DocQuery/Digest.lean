import DocQuery.Value.Text

/-!
# Digests — fixed-size names of values

The digest of a text is the SHA-256 hash of its bytes, as 64 digits of base sixteen.  The key of a value is the digest
of its text behind a word that tells what the key is for.
-/
namespace DocQuery.Digest

def rotate (x n : UInt32) : UInt32 := (x >>> n) ||| (x <<< (32 - n))

def start : List UInt32 :=
  [0x6a09e667, 0xbb67ae85, 0x3c6ef372, 0xa54ff53a, 0x510e527f, 0x9b05688c, 0x1f83d9ab, 0x5be0cd19]

def roundWords : List UInt32 :=
  [0x428a2f98, 0x71374491, 0xb5c0fbcf, 0xe9b5dba5, 0x3956c25b, 0x59f111f1, 0x923f82a4, 0xab1c5ed5,
    0xd807aa98, 0x12835b01, 0x243185be, 0x550c7dc3, 0x72be5d74, 0x80deb1fe, 0x9bdc06a7, 0xc19bf174,
    0xe49b69c1, 0xefbe4786, 0x0fc19dc6, 0x240ca1cc, 0x2de92c6f, 0x4a7484aa, 0x5cb0a9dc, 0x76f988da,
    0x983e5152, 0xa831c66d, 0xb00327c8, 0xbf597fc7, 0xc6e00bf3, 0xd5a79147, 0x06ca6351, 0x14292967,
    0x27b70a85, 0x2e1b2138, 0x4d2c6dfc, 0x53380d13, 0x650a7354, 0x766a0abb, 0x81c2c92e, 0x92722c85,
    0xa2bfe8a1, 0xa81a664b, 0xc24b8b70, 0xc76c51a3, 0xd192e819, 0xd6990624, 0xf40e3585, 0x106aa070,
    0x19a4c116, 0x1e376c08, 0x2748774c, 0x34b0bcb5, 0x391c0cb3, 0x4ed8aa4a, 0x5b9cca4f, 0x682e6ff3,
    0x748f82ee, 0x78a5636f, 0x84c87814, 0x8cc70208, 0x90befffa, 0xa4506ceb, 0xbef9a3f7, 0xc67178f2]

def wordOf (a b c d : UInt8) : UInt32 :=
  (a.toUInt32 <<< 24) ||| (b.toUInt32 <<< 16) ||| (c.toUInt32 <<< 8) ||| d.toUInt32

def words : List UInt8 → List UInt32
  | a :: b :: c :: d :: r => wordOf a b c d :: words r
  | _ => []

def bytesOf (w : UInt32) : List UInt8 :=
  [(w >>> 24).toUInt8, (w >>> 16).toUInt8, (w >>> 8).toUInt8, w.toUInt8]

def lengthBytes (n : Nat) : List UInt8 :=
  [n >>> 56, n >>> 48, n >>> 40, n >>> 32, n >>> 24, n >>> 16, n >>> 8, n].map UInt8.ofNat

/-- A message filled up to whole blocks of 64 bytes: a set bit, zeros, and the length in bits. -/
def padded (message : List UInt8) : List UInt8 :=
  message ++ 0x80 :: List.replicate ((119 - message.length % 64) % 64) 0 ++ lengthBytes (8 * message.length)

/-- The word that a schedule goes on with behind sixteen words. -/
def nextWord (w : List UInt32) : UInt32 :=
  let word (i : Nat) : UInt32 := w.getD i 0
  let low (x : UInt32) : UInt32 := rotate x 7 ^^^ rotate x 18 ^^^ (x >>> 3)
  let high (x : UInt32) : UInt32 := rotate x 17 ^^^ rotate x 19 ^^^ (x >>> 10)
  word 0 + low (word 1) + word 9 + high (word 14)

def round (state : List UInt32) (k w : UInt32) : List UInt32 :=
  match state with
  | [a, b, c, d, e, f, g, h] =>
    let t := h + (rotate e 6 ^^^ rotate e 11 ^^^ rotate e 25) + ((e &&& f) ^^^ (~~~e &&& g)) + k + w
    let u := (rotate a 2 ^^^ rotate a 13 ^^^ rotate a 22) + ((a &&& b) ^^^ (a &&& c) ^^^ (b &&& c))
    [t + u, a, b, c, d + t, e, f, g]
  | _ => state

/-- The rounds of a block; the schedule holds the next sixteen words. -/
def rounds : List UInt32 → List UInt32 → List UInt32 → List UInt32
  | [], _, state => state
  | k :: ks, schedule, state =>
    rounds ks (schedule.tail ++ [nextWord schedule]) (round state k (schedule.headD 0))

def block (state schedule : List UInt32) : List UInt32 :=
  List.zipWith (· + ·) state (rounds roundWords schedule state)

def blocks : Nat → List UInt32 → List UInt32 → List UInt32
  | 0, _, state => state
  | n + 1, ws, state => blocks n (ws.drop 16) (block state (ws.take 16))

def sha256 (message : List UInt8) : List UInt8 :=
  let ws := words (padded message)
  (blocks (ws.length / 16) ws start).flatMap bytesOf

def digits (b : UInt8) : List Char := [Text.hexDigit (b.toNat / 16), Text.hexDigit (b.toNat % 16)]

def ofText (s : String) : String := String.ofList ((sha256 s.toUTF8.toList).flatMap digits)

def key (purpose : String) (v : Value) : String := purpose ++ ":" ++ ofText v.text

end DocQuery.Digest
