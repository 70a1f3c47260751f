import DocQuery.Fault

/-!
# Runs — operations that change a state and may fail

A run takes a state to a result or a fault, and to a new state in either case: what was done before a fault stays done.
-/
namespace DocQuery

/-- An operation on a state. -/
abbrev Run (σ α : Type) := ExceptT Fault (StateM σ) α

namespace Run

variable {σ τ α : Type}

def of (f : σ → Except Fault α × σ) : Run σ α := ExceptT.mk f

def on (m : Run σ α) (s : σ) : Except Fault α × σ := ExceptT.run m s

def within (read : σ → τ) (write : τ → σ → σ) (m : Run τ α) : Run σ α :=
  of fun s =>
    let (r, t) := m.on (read s)
    (r, write t s)

end Run

end DocQuery
