import DocQuery.Session

/-!
# Writing through a session

The operations take a finalized request.  A write goes to a master, and removes from the cache what the request names.
-/
namespace DocQuery.Session

variable {σ : Type}

/-- Removes from the cache what a directive names: the key if it is there, otherwise all keys under the tag. -/
def invalidate (directive : CacheDirective) (now : Nat) (cache : Cache) : Cache :=
  let byTag (c : Cache) : Cache := match directive.tag with
    | some t => c.clearTag t
    | none => c
  match directive.key with
  | some k =>
    let (hit, cache) := cache.lookup now k
    if hit.isSome then cache.delete k else byTag cache
  | none => byTag cache

def submit (q : Request) (b : BulkWrite) : Run (Session σ) WriteResult := do
  let (slot, link) ← endpoint .write
  let s ← get
  let ns ← s.collection q slot
  let r ← drive (s.pool.driver.write link ns b q.writeConcern)
  record (b.statement ns)
  modify fun s =>
    { s with
      rowCount := r.matched
      cache := match q.cache with
        | some d => invalidate d s.now s.cache
        | none => s.cache }
  return r

def supplied {α : Type} (f : KeyRule → IdSupply → α × IdSupply) : Run (Session σ) α :=
  .of fun s =>
    let (a, supply) := f s.keyRule s.supply
    (.ok a, { s with supply := supply })

def withKey (s : Session σ) (q : Request) (id : Value) : Request :=
  q.setData (s.primaryKey q.tableName) (.ofValue id)

/-- Inserts the data: how many documents were inserted, their identifier, and the request with it. -/
def insert (q : Request) : Run (Session σ) (Nat × Option Value × Request) := do
  if q.data.isEmpty then throw (.precondition .insertData)
  let (b, id) ← supplied fun r supply =>
    let (b, id, supply) := r.insertion q supply
    ((b, id), supply)
  let result ← submit q b
  if result.inserted = 0 then return (0, none, q)
  let id := id.map DocumentId.toPlain
  let s ← get
  let q := match id with
    | some v => s.withKey q v
    | none => q
  let _ ← trigger .afterInsert q id
  return (result.inserted, id, q)

def insertAll (q : Request) (rows : List Fields) : Run (Session σ) Nat := do
  if rows.isEmpty then return 0
  let b ← supplied fun r supply =>
    let (b, _, supply) := r.insertions q rows supply
    (b, supply)
  return (← submit q b).inserted

def update (q : Request) : Run (Session σ) Nat := do
  if q.data.isEmpty then throw (.precondition .updateData)
  let s ← get
  let b ← s.keyRule.update q
  let result ← submit q b
  if 0 < result.modified ∨ 0 < result.upserted then
    let _ ← trigger .afterUpdate q (some (.ofNat result.modified))
  return result.modified

/-- Deletes what is found; a condition is needed unless the request forces it. -/
def delete (q : Request) : Run (Session σ) Nat := do
  let s ← get
  let filter ← s.keyRule.compileFilter q
  if filter.isEmpty ∧ !(q.force.getD false) then throw (.precondition .deleteCondition)
  let b ← s.keyRule.deletion q
  let result ← submit q b
  if 0 < result.deleted then
    let _ ← trigger .afterDelete q (some (.ofNat result.deleted))
  return result.deleted

def counterKey (s : Session σ) (q : Request) (field : String) : Except Fault String := do
  let filter ← s.keyRule.compileFilter q
  return Counter.key q.tableName field (.obj filter)

/-- Adds a step to the counter of a field, for a window of so many milliseconds. -/
def accumulate (q : Request) (field : String) (step : Int) (window : Nat) : Run (Session σ) CounterOutcome := do
  let s ← get
  let key ← s.counterKey q field
  let (outcome, cache) := Counter.accumulate s.cache s.now s.clock key step window
  set { s with cache := cache }
  return outcome

end DocQuery.Session
