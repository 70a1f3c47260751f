import DocQuery.Value

/-!
# The cache — values under keys, for a time and under tags

An entry may have a lifetime, and a key may have been filed under tags.  Expired entries count until they are asked
for.  Times are milliseconds.
-/
namespace DocQuery

structure CacheEntry where
  value : Value
  /-- the time from which on the entry is no longer there -/
  expiry : Option Nat := none

structure Cache where
  entries : Keyed String CacheEntry := []
  /-- the keys that were stored under a tag since the tag was last cleared -/
  tags : Keyed String (List String) := []

def CacheEntry.isLive (e : CacheEntry) (now : Nat) : Bool :=
  match e.expiry with
  | some t => now < t
  | none => true

namespace Cache

def get? (c : Cache) (now : Nat) (key : String) : Option Value :=
  (Keyed.get? c.entries key).bind fun e => if e.isLive now then some e.value else none

def delete (c : Cache) (key : String) : Cache := { c with entries := Keyed.erase c.entries key }

/-- Removes a key whose entry has expired. -/
def purge (c : Cache) (now : Nat) (key : String) : Cache :=
  match Keyed.get? c.entries key with
  | some e => if e.isLive now then c else c.delete key
  | none => c

def lookup (c : Cache) (now : Nat) (key : String) : Option Value × Cache := (c.get? now key, c.purge now key)

def set (c : Cache) (now : Nat) (key : String) (v : Value) (tag : Option String) (lifetime : Option Nat) : Cache :=
  { entries := Keyed.set c.entries key ⟨v, lifetime.map (now + ·)⟩
    tags := match tag with
      | some t => Keyed.set c.tags t (key :: (Keyed.get? c.tags t).getD [])
      | none => c.tags }

def clearTag (c : Cache) (tag : String) : Cache :=
  match Keyed.get? c.tags tag with
  | some ks => { entries := ks.foldl Keyed.erase c.entries, tags := Keyed.erase c.tags tag }
  | none => c

def number (c : Cache) (now : Nat) (key : String) : Int := ((c.get? now key).bind Value.signed?).getD 0

/-- Adds to the whole number under a key: the sum, in a signed word of 64 bits, and the cache that keeps it for good. -/
def increment (c : Cache) (now : Nat) (key : String) (step : Int) : Int × Cache :=
  let sum := Value.wrapped (c.number now key + step)
  (sum, { c with entries := Keyed.set c.entries key ⟨.int sum, none⟩ })

/-- The number of entries, expired ones included. -/
def size (c : Cache) : Nat := c.entries.length

end Cache

end DocQuery
