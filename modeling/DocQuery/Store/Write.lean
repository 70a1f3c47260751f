import DocQuery.Payload
import DocQuery.Store
import DocQuery.Store.Change

/-!
# Writing to a collection

The writes of a bulk run in order.  The first that fails ends the bulk; what was written before stays written.
-/
namespace DocQuery

/-- A bulk write under way: the documents, the counters, and where identifiers come from. -/
structure WriteState where
  docs : List Value
  result : WriteResult := {}
  supply : IdSupply

namespace Write

/-- A document with an identifier, made up if it has none; whatever is no object stays as it is. -/
def ensureId (supply : IdSupply) (doc : Value) : Value × IdSupply :=
  match doc with
  | .obj fs =>
    if Keyed.has fs "_id" then (doc, supply)
    else
      let (id, supply) := supply.take
      (.obj (Keyed.set fs "_id" id.toValue), supply)
  | _ => (doc, supply)

def idOf? (doc : Value) : Option DocumentId := (doc.field? "_id").bind DocumentId.ofValue?

/-- Whether two documents have equal identifiers, or both none. -/
def sameId (a b : Value) : Bool :=
  match a.field? "_id", b.field? "_id" with
  | some x, some y => x == y
  | none, none => true
  | _, _ => false

def notADocument : Fault := .driver ⟨.bulkWrite, "document must be an object"⟩

def duplicateKey (ns : Namespace) (id : DocumentId) : Fault :=
  .driver ⟨.bulkWrite, s!"E11000 duplicate key error collection: {ns.text} _id: {id.toPlain.text}"⟩

def insert (ns : Namespace) (document : Value) (st : WriteState) : WriteState × Option Fault :=
  let (doc, supply) := ensureId st.supply document
  let st := { st with supply := supply }
  match idOf? doc with
  | none => (st, some notADocument)
  | some id =>
    if st.docs.any (sameId doc) then (st, some (duplicateKey ns id))
    else
      ({ st with
          docs := st.docs ++ [doc]
          result := { st.result with
            inserted := st.result.inserted + 1, insertedIds := st.result.insertedIds ++ [id] } }, none)

structure Updated where
  docs : List Value
  matched : Nat := 0
  modified : Nat := 0
  fault : Option ChangeFault := none

/-- Changes the documents that a filter holds on: all of them, or only the first. -/
def updateMatches (f : Filter) (change : Value) (multi : Bool) : List Value → Updated
  | [] => { docs := [] }
  | d :: ds =>
    if f.holds d then
      match Change.apply change d with
      | (new, .error e) => { docs := new :: ds, matched := 1, fault := some e }
      | (new, .ok changed) =>
        let rest : Updated := if multi then updateMatches f change multi ds else { docs := ds }
        { docs := new :: rest.docs, matched := rest.matched + 1
          modified := rest.modified + (if changed then 1 else 0), fault := rest.fault }
    else
      let rest := updateMatches f change multi ds
      { rest with docs := d :: rest.docs }

mutual

/-- The document that an upsert starts from: the fields that a filter document wants to be equal to something. -/
def seed (acc : Value) : Value → Value
  | .obj fs => seedFields acc fs
  | _ => acc

def seedFields (acc : Value) : List (String × Value) → Value
  | [] => acc
  | (key, v) :: r =>
    let acc :=
      if key = "$and" then
        match v with
        | .arr branches => seedBranches acc branches
        | _ => acc
      else if Text.startsWith key "$" then acc
      else match v with
        | .obj ops =>
          if Change.isOperators ops && !Keyed.has ops ObjectId.fieldKey then
            match Keyed.get? ops "$eq" with
            | some v => acc.setPath key v
            | none => acc
          else acc.setPath key (.obj ops)
        | v => acc.setPath key v
    seedFields acc r

def seedBranches (acc : Value) : List Value → Value
  | [] => acc
  | b :: bs => seedBranches (seed acc b) bs

end

def upsert (filter change : Value) (st : WriteState) : WriteState × Option Fault :=
  match Change.apply change (seed (.obj []) filter) with
  | (_, .error e) => (st, some e.fault)
  | (doc, .ok _) =>
    let (doc, supply) := ensureId st.supply doc
    ({ docs := st.docs ++ [doc], supply := supply
       result := { st.result with upserted := st.result.upserted + 1 } }, none)

def update (filter change : Value) (multi wantsUpsert : Bool) (st : WriteState) : WriteState × Option Fault :=
  match Filter.ofValue filter with
  | .error e => (st, some e)
  | .ok f =>
    let u := updateMatches f change multi st.docs
    let st := { st with
      docs := u.docs
      result := { st.result with
        matched := st.result.matched + u.matched, modified := st.result.modified + u.modified } }
    match u.fault with
    | some e => (st, some e.fault)
    | none => if u.matched = 0 ∧ wantsUpsert then upsert filter change st else (st, none)

def removeFirst (f : Filter) : List Value → List Value
  | [] => []
  | d :: ds => if f.holds d then ds else d :: removeFirst f ds

def delete (filter : Value) (limit : Nat) (st : WriteState) : WriteState × Option Fault :=
  match Filter.ofValue filter with
  | .error e => (st, some e)
  | .ok f =>
    let docs := if limit = 1 then removeFirst f st.docs else st.docs.filter fun d => !f.holds d
    ({ st with
        docs := docs
        result := { st.result with deleted := st.result.deleted + (st.docs.length - docs.length) } }, none)

def one (ns : Namespace) (st : WriteState) : WriteModel → WriteState × Option Fault
  | .insert document => insert ns document st
  | .update filter change multi upsert => update filter change multi upsert st
  | .delete filter limit => delete filter limit st

/-- Runs writes in order, up to the first that fails. -/
def all (ns : Namespace) : BulkWrite → WriteState → WriteState × Option Fault
  | [], st => (st, none)
  | w :: ws, st =>
    match one ns st w with
    | (st, none) => all ns ws st
    | (st, some f) => (st, some f)

end Write

namespace Store

/-- Runs a bulk write on a collection, which is there afterwards: the store, the supply of identifiers, and the
counters or the fault. -/
def write (s : Store) (supply : IdSupply) (ns : Namespace) (b : BulkWrite) :
    Store × IdSupply × Except Fault WriteResult :=
  let (st, fault) := Write.all ns b { docs := s.documents ns, supply := supply }
  (s.setDocuments ns st.docs, st.supply,
    match fault with
    | none => .ok st.result
    | some f => .error f)

end Store

end DocQuery
