import DocQuery.Cache.Counter
import DocQuery.Compile.Payload
import DocQuery.Endpoint.Pool
import DocQuery.Naming
import DocQuery.Payload
import DocQuery.Session.Listener

/-!
# Sessions — requests against a store

A session has a pool of links, a cache, listeners and counters of what went through it.  `request` finalizes a request;
the rest of this module is what reads and writes have in common: finding the endpoint, naming the collection, keeping
the statement, and delivering rows.
-/
namespace DocQuery

/-- Numbers that choices between equal endpoints are made by. -/
structure Draws where
  draw : Nat → Nat := fun _ => 0
  next : Nat := 0

structure Session (σ : Type) where
  pool : Pool σ
  naming : Naming
  cache : Cache := {}
  /-- the time that the cache goes by -/
  now : Nat := 0
  /-- the reading of the clock that counters go by -/
  clock : Int := 0
  supply : IdSupply
  draws : Draws := {}
  listeners : List Listener := []
  notices : List Notice := []
  /-- the last statement, empty unless statements are kept -/
  statement : String := ""
  /-- the rows of the last read, or what the last write matched -/
  rowCount : Nat := 0
  /-- how often the store was asked successfully -/
  trips : Nat := 0

namespace Session

variable {σ α : Type}

def start (settings : Settings) (driver : Driver σ) (state : σ) (supply : IdSupply) : Except Fault (Session σ) := do
  settings.validate
  return { pool := { settings := settings, driver := driver, state := state }
           naming := .ofSettings settings, supply := supply }

def settings (s : Session σ) : Settings := s.pool.settings

def keyRule (s : Session σ) : KeyRule := s.settings.keyRule

def lastStatement? (s : Session σ) : Option String :=
  if s.settings.debug ∧ s.statement ≠ "" then some s.statement else none

def primaryKey (s : Session σ) (_table : String) : String := s.naming.pk

/-- The table of a request: the one that it names, or the one that its logical name stands for. -/
def tableFor (s : Session σ) (q : Request) : String := q.table.getD (s.naming.tableName (q.name.getD ""))

def primaryKeyFor (s : Session σ) (q : Request) : String := s.primaryKey (s.tableFor q)

def finalize (s : Session σ) (q : Request) : Request := q.finalize (s.tableFor q) s.settings.rowShape

def listen (s : Session σ) (l : Listener) : Session σ := { s with listeners := s.listeners ++ [l] }

def hasListener (s : Session σ) (hook : Hook) : Bool := s.listeners.any (·.hook == hook)

def close (s : Session σ) : Session σ := { s with pool := s.pool.close }

/-- Calls the listeners at a hook: the result that one of them gives. -/
def trigger (hook : Hook) (q : Request) (outcome : Option Value) : Run (Session σ) (Option Value) :=
  .of fun s =>
    let (v, ns) := Listener.call hook q outcome s.listeners
    (.ok v, { s with notices := s.notices ++ ns })

def pooled (m : Run (Pool σ) α) : Run (Session σ) α := m.within Session.pool fun p s => { s with pool := p }

def drive (m : Run σ α) : Run (Session σ) α := pooled (Pool.drive m)

def draw : Run (Session σ) Nat :=
  .of fun s => (.ok (s.draws.draw s.draws.next), { s with draws := { s.draws with next := s.draws.next + 1 } })

def endpoint (role : Role) : Run (Session σ) (Slot × Link) := do
  let n ← draw
  pooled (Pool.endpoint role n)

def readRole (q : Request) : Role := if q.wantsMaster then .write else .read

def collection (s : Session σ) (q : Request) (slot : Slot) : Except Fault Namespace :=
  if q.tableName = "" then .error (.query .noCollection)
  else .ok (.resolve (s.settings.databaseFor slot) q.tableName)

/-- Counts a statement that was carried out, and keeps it if statements are kept. -/
def record (statement : String) : Run (Session σ) Unit :=
  modify fun s =>
    { s with trips := s.trips + 1, statement := if s.settings.debug then statement else s.statement }

/-- Delivers rows in the shape that a request asks for, identifiers exposed if the settings say so. -/
def deliver (q : Request) (rows : List Value) : Run (Session σ) (List Value) := do
  let s ← get
  let rows ← drive (s.pool.driver.deliver (q.rowShape.getD s.settings.rowShape) rows)
  let rows := if s.settings.convertId then rows.map Value.exposeId else rows
  modify fun s => { s with rowCount := rows.length }
  return rows

/-- The rows of a find, as the driver has them. -/
def openRows (q : Request) (p : FindPayload) : Run (Session σ) (List Value) := do
  let (slot, link) ← endpoint (readRole q)
  let s ← get
  let ns ← s.collection q slot
  let rows ← drive (s.pool.driver.query link ns p q.readPreference)
  record (p.statement ns)
  return rows

def fetch (q : Request) (p : FindPayload) : Run (Session σ) (List Value) := do deliver q (← openRows q p)

/-- The rows of a command; without a database it goes to that of the endpoint. -/
def command (q : Request) (c : Command) (database : Option String) : Run (Session σ) (List Value) := do
  let (slot, link) ← endpoint (readRole q)
  let s ← get
  let database := match database with
    | some db => if db = "" then s.settings.databaseFor slot else db
    | none => s.settings.databaseFor slot
  let rows ← drive (s.pool.driver.command link database c q.readPreference)
  record (c.statement database)
  deliver q rows

def cacheKey (directive : CacheDirective) (q : Request) (kind : String) (payload : Value) : String :=
  directive.key.getD (Digest.key "query" (.arr [.str q.tableName, .str kind, payload]))

def isUncached : Value → Bool
  | .null => true
  | .bool b => !b
  | .arr xs => xs.isEmpty
  | _ => false

/-- A result out of the cache if the request wants that and it is there; otherwise the result that is fetched, which is
cached for later. -/
def cached (q : Request) (kind : String) (payload : Value) (fetch : Run (Session σ) Value) :
    Run (Session σ) Value := do
  match q.cache with
  | none => fetch
  | some directive =>
    let key := cacheKey directive q kind payload
    let s ← get
    let (hit, cache) := s.cache.lookup s.now key
    set { s with cache := cache }
    match hit with
    | some v => return v
    | none =>
      let v ← fetch
      if !isUncached v then
        modify fun s => { s with cache := s.cache.set s.now key v directive.tag directive.lifetime }
      return v

end Session

def FindPayload.toValue (p : FindPayload) : Value := .arr [p.filter, p.options.toValue]

end DocQuery
