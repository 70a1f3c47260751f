import DocQuery.Request

/-!
# Listeners

A listener waits at a hook: before a read, where it can give the result in place of the store, or after a write, whose
outcome it is told.
-/
namespace DocQuery

inductive Hook where
  | beforeSelect
  | beforeFind
  | afterInsert
  | afterUpdate
  | afterDelete
  deriving DecidableEq

def Hook.name : Hook → String
  | beforeSelect => "before_select"
  | beforeFind => "before_find"
  | afterInsert => "after_insert"
  | afterUpdate => "after_update"
  | afterDelete => "after_delete"

def Hook.all : List Hook := [beforeSelect, beforeFind, afterInsert, afterUpdate, afterDelete]

def Hook.ofName? (s : String) : Option Hook := Hook.all.find? (·.name == s)

structure Listener where
  hook : Hook
  /-- what the listener signs its notices with -/
  tag : String
  /-- the requests that it takes notice of -/
  hears : Request → Bool
  /-- the result it gives, from the request and the outcome of a write -/
  answer : Request → Option Value → Option Value

structure Notice where
  hook : Hook
  tag : String
  table : String
  outcome : Option Value

namespace Listener

def isNothing : Value → Bool
  | .null => true
  | .bool b => !b
  | .arr xs => xs.isEmpty
  | .obj fs => fs.isEmpty
  | _ => false

def notice (l : Listener) (q : Request) (outcome : Option Value) : Notice := ⟨l.hook, l.tag, q.tableName, outcome⟩

/-- Calls the listeners at a hook in order, up to the first that gives a result, and collects their notices. -/
def call (hook : Hook) (q : Request) (outcome : Option Value) : List Listener → Option Value × List Notice
  | [] => (none, [])
  | l :: ls =>
    if l.hook ≠ hook ∨ !l.hears q then call hook q outcome ls
    else
      match (l.answer q outcome).filter fun v => !isNothing v with
      | some v => (some v, [l.notice q outcome])
      | none =>
        let (v, ns) := call hook q outcome ls
        (v, l.notice q outcome :: ns)

end Listener

end DocQuery
