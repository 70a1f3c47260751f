import DocQuery.Driver
import DocQuery.Endpoint.Address

/-!
# Pools — one link for each endpoint

A link is opened when its endpoint is first needed and kept until the pool is closed.  An endpoint that cannot be
reached stays without a link, and is tried again the next time.
-/
namespace DocQuery

structure Pool (σ : Type) where
  settings : Settings
  driver : Driver σ
  state : σ
  links : Keyed Slot Link := []

namespace Pool

variable {σ α : Type}

def drive (m : Run σ α) : Run (Pool σ) α := m.within Pool.state fun s p => { p with state := s }

/-- The link to a slot, which is opened if there is none yet. -/
def link (slot : Slot) : Run (Pool σ) Link := do
  let p ← get
  match Keyed.get? p.links slot with
  | some l => return l
  | none =>
    let l ← drive (p.driver.connect (p.settings.target slot).1 (p.settings.target slot).2)
    modify fun p => { p with links := Keyed.set p.links slot l }
    return l

def endpoint (role : Role) (draw : Nat) : Run (Pool σ) (Slot × Link) := do
  let slot := (← get).settings.select role draw
  return (slot, ← link slot)

def isConnected (p : Pool σ) (slot : Slot) : Bool := Keyed.has p.links slot

def close (p : Pool σ) : Pool σ := { p with links := [] }

def flagText (b : Bool) : String := if b then "true" else "false"

/-- A pool as messages show it. -/
def shown (p : Pool σ) : String :=
  let mode := match p.settings.topology with
    | .standalone => "Standalone"
    | .replicaSet => "ReplicaSet"
    | .distributed separate => "Distributed \x7b rw_separate: " ++ flagText separate ++ " \x7d"
  "Topology \x7b mode: " ++ mode ++ ", connected: " ++ toString p.links.length ++ " \x7d"

end Pool

end DocQuery
