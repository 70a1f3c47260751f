import DocQuery.Concern
import DocQuery.Payload
import DocQuery.Namespace
import DocQuery.Run

/-!
# Drivers — what carries payloads out

A driver opens links to servers and runs finds, bulk writes and commands on them.  Its own state, and with it all that
is stored, is a parameter.
-/
namespace DocQuery

/-- An open link to a server, told apart by a number that its driver gives it. -/
structure Link where
  number : Nat
  deriving DecidableEq

/-- What carries payloads out, with `σ` for all it knows. -/
structure Driver (σ : Type) where
  connect : String → Fields → Run σ Link
  query : Link → Namespace → FindPayload → Option ReadPreference → Run σ (List Value)
  write : Link → Namespace → BulkWrite → Option WriteConcern → Run σ WriteResult
  command : Link → String → Command → Option ReadPreference → Run σ (List Value)
  deliver : RowShape → List Value → Run σ (List Value)

end DocQuery
