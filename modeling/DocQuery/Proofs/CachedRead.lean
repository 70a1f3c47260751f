import DocQuery.Proofs.CacheFrame
import DocQuery.Proofs.Reading

/-!
# Reads through the cache

A read is one operation (`Read.run_on`): it compiles its request, asks the cache, and asks the store for what is not
there.  On the driver in memory what it gives depends on nothing but the store and its request (`ReadCall.result_eq`),
so a cache that only such reads have filled holds what some read with the same key has given (`ReadCall.Filed`).
Reading through it makes no difference just if reads that share a key have the same use of what is there
(`ReadCall.transparent_iff_agree`).
-/
namespace DocQuery

/-- A compiled read: what the store is asked for. -/
inductive Plan where
  | find (p : FindPayload)
  | command (c : Command)

namespace Plan

variable {σ : Type}

/-- The value that the key of a result is made of. -/
def toValue : Plan → Value
  | find p => p.toValue
  | command c => c.toValue

def fetch (q : Request) : Plan → Run (Session σ) (List Value)
  | find p => Session.fetch q p
  | command c => Session.command q c none

def rows (st : Store) (database table : String) : Plan → Except Fault (List Value)
  | find p => if table = "" then .error (.query .noCollection) else st.find (.resolve database table) p
  | command c => (st.command database c).map Prod.snd

def Keeps : Plan → Prop
  | find _ => True
  | command c => c.name ≠ "drop"

theorem keeps_build {name : String} (h : name ≠ "drop") (argument : Value) (more : Fields) :
    (command (.build name argument more)).Keeps := h

theorem cacheFree_fetch (q : Request) (p : Plan) : Session.CacheFree (p.fetch q : Run (Session σ) (List Value)) := by
  cases p with
  | find p => exact Session.cacheFree_fetch q p
  | command c => exact Session.cacheFree_command q c none

end Plan

namespace Session

/-- What a role reads is in one database and can be reached, and no listener waits before a read. -/
structure Uniform (s : Session Memory) (database : Role → String) : Prop where
  driver : s.pool.driver = Memory.driver
  selects : s.hasListener .beforeSelect = false
  finds : s.hasListener .beforeFind = false
  link : ∀ role n, s.pool.CanLink (s.settings.select role n)
  database : ∀ role n, s.settings.databaseFor (s.settings.select role n) = database role

theorem Carries.uniform {s t : Session Memory} {database : Role → String} (h : Carries s t) (hs : Uniform s database) :
    Uniform t database := by
  have hsettings : t.settings = s.settings := h.pool.settings
  refine ⟨h.pool.driver.trans hs.driver, ?_, ?_, fun role n => ?_, fun role n => ?_⟩
  · rw [hasListener, h.listeners]
    exact hs.selects
  · rw [hasListener, h.listeners]
    exact hs.finds
  · rw [hsettings]
    exact h.pool.canLink (hs.link role n)
  · rw [hsettings]
    exact hs.database role n

def exposed (s : Session Memory) (rows : List Value) : List Value :=
  if s.keyRule.convertId then rows.map Value.exposeId else rows

section

variable {s : Session Memory} {database : Role → String}

theorem endpoint_uniform (hs : Uniform s database) (q : Request) : ∃ l t, Carries s t ∧
    (endpoint (readRole q)).on s = (.ok (s.slotFor q, l), t) := by
  obtain ⟨t, ht, ⟨-, l, hl⟩ | ⟨hno, -⟩⟩ := endpoint_on hs.driver q
  · exact ⟨l, t, ht, hl⟩
  · exact absurd (hs.link _ _) hno

theorem collection_uniform (hs : Uniform s database) (q : Request) : s.collection q (s.slotFor q) =
    if q.tableName = "" then .error (.query .noCollection) else .ok (.resolve (database (readRole q)) q.tableName) := by
  unfold collection slotFor
  rw [hs.database]

theorem recorded_on {t : Session Memory} (hm : t.pool.driver = Memory.driver) (q : Request) (statement : String)
    (rows : List Value) : ∃ u, Carries t u ∧
      (record statement >>= fun _ => deliver q rows).on t = (.ok (t.exposed rows), u) := by
  obtain ⟨u, hu, hdeliver⟩ := deliver_on (s := { t with trips := t.trips + 1, statement :=
    if t.settings.debug then statement else t.statement }) hm q rows
  refine ⟨u, ⟨hu.pool, hu.naming, hu.listeners⟩, ?_⟩
  rw [record, Run.on_bind_ok (Run.on_modify _ _), hdeliver]
  rfl

theorem find_on (hs : Uniform s database) (q : Request) (p : FindPayload) : ∃ t, Carries s t ∧ (fetch q p).on s =
    (((Plan.find p).rows s.pool.state.store (database (readRole q)) q.tableName).map s.exposed, t) := by
  obtain ⟨l, t, ht, hl⟩ := endpoint_uniform hs q
  have hmt : t.pool.driver = Memory.driver := ht.pool.driver.trans hs.driver
  have hexposed : t.exposed = s.exposed := by
    funext rows
    rw [exposed, exposed, ht.keyRule]
  have hcoll := (ht.collection q (s.slotFor q)).trans (collection_uniform hs q)
  unfold fetch openRows Plan.rows
  simp only [bind_assoc, pure_bind]
  rw [Run.on_bind_ok hl, Run.on_bind_ok (Run.on_get _), hcoll]
  by_cases htable : q.tableName = ""
  · rw [if_pos htable, if_pos htable, Run.on_bind_error (Run.on_lift _ _)]
    exact ⟨t, ht, rfl⟩
  · rw [if_neg htable, if_neg htable, Run.on_bind_ok (Run.on_lift _ _)]
    have hdrive : ∀ ns, (drive (t.pool.driver.query l ns p q.readPreference)).on t
        = (s.pool.state.store.find ns p, t) := fun ns => by
      rw [hmt, ← ht.pool.store]
      rfl
    cases hrows : s.pool.state.store.find (.resolve (database (readRole q)) q.tableName) p with
    | error e =>
      rw [Run.on_bind_error ((hdrive _).trans (by rw [hrows]))]
      exact ⟨t, ht, rfl⟩
    | ok rows =>
      rw [Run.on_bind_ok ((hdrive _).trans (by rw [hrows]))]
      obtain ⟨u, hu, hon⟩ := recorded_on hmt q _ rows
      exact ⟨u, ht.trans hu, by rw [hon, hexposed]; rfl⟩

theorem command_on (hs : Uniform s database) (q : Request) {c : Command} (hc : c.name ≠ "drop") :
    ∃ t, Carries s t ∧ (command q c none).on s =
      (((Plan.command c).rows s.pool.state.store (database (readRole q)) q.tableName).map s.exposed, t) := by
  obtain ⟨l, t, ht, hl⟩ := endpoint_uniform hs q
  have hmt : t.pool.driver = Memory.driver := ht.pool.driver.trans hs.driver
  have hexposed : t.exposed = s.exposed := by
    funext rows
    rw [exposed, exposed, ht.keyRule]
  have hdatabase : t.settings.databaseFor (s.slotFor q) = database (readRole q) := by
    rw [show t.settings = s.settings from ht.pool.settings]
    exact hs.database _ _
  have hdrive : ∀ db, (drive (t.pool.driver.command l db c q.readPreference)).on t
      = ((s.pool.state.store.command db c).map Prod.snd, t) := fun db => by
    rw [hmt, ← ht.pool.store]
    have hstore : ∀ r, t.pool.state.store.command db c = r → (t.pool.state.command db c)
        = (r.map Prod.snd, t.pool.state) := fun r hr => by
      unfold Memory.command
      rw [hr]
      cases r with
      | error e => rfl
      | ok r =>
        rcases Store.command_eq_ok hr with hsame | ⟨hdrop, -⟩
        · simp only [hsame, Except.map]
        · exact absurd hdrop hc
    have hon := hstore _ rfl
    rw [drive, Pool.drive, pooled, Run.on_within, Run.on_within]
    simp only [Memory.driver, Run.on_of, hon]
  unfold command Plan.rows
  rw [Run.on_bind_ok hl]
  simp only
  rw [Run.on_bind_ok (Run.on_get _), hdatabase]
  cases hrows : (s.pool.state.store.command (database (readRole q)) c).map Prod.snd with
  | error e =>
    rw [Run.on_bind_error ((hdrive _).trans (by rw [hrows]))]
    exact ⟨t, ht, rfl⟩
  | ok rows =>
    rw [Run.on_bind_ok ((hdrive _).trans (by rw [hrows]))]
    obtain ⟨u, hu, hon⟩ := recorded_on hmt q _ rows
    exact ⟨u, ht.trans hu, by rw [hon, hexposed]; rfl⟩

/-- **A read gives the rows of the store.** -/
theorem plan_on (hs : Uniform s database) (q : Request) {p : Plan} (hp : p.Keeps) : ∃ t, Carries s t ∧
    (p.fetch q).on s = ((p.rows s.pool.state.store (database (readRole q)) q.tableName).map s.exposed, t) := by
  cases p with
  | find p => exact find_on hs q p
  | command c => exact command_on hs q hp

end

section

variable {σ : Type} {s : Session σ} {q : Request} {d : CacheDirective} {kind : String} {payload : Value}
  {fetch : Run (Session σ) Value}

theorem cached_hit (hq : q.cache = some d) {e : CacheEntry} (he : s.cache.held? (cacheKey d q kind payload) = some e)
    (hl : e.expiry = none) : (cached q kind payload fetch).on s = (.ok e.value, s) := by
  have hpurge : s.cache.purge s.now (cacheKey d q kind payload) = s.cache :=
    Cache.purge_of_lasting fun e' he' => by
      cases he.symm.trans he'
      exact hl
  unfold cached Cache.lookup
  rw [hq]
  simp only
  rw [Run.on_bind_ok (Run.on_get _), Run.on_bind_ok (Run.on_set _ _), hpurge, Cache.get?_of_held? he hl]
  rfl

def entryOf : Except Fault Value → Option CacheEntry
  | .ok v => if isUncached v then none else some ⟨v, none⟩
  | .error _ => none

theorem entryOf_eq_some {r : Except Fault Value} {e : CacheEntry} (h : entryOf r = some e) :
    r = .ok e.value ∧ e.expiry = none := by
  cases r with
  | error f => cases h
  | ok v =>
    rw [entryOf] at h
    split at h
    · cases h
    · cases h
      exact ⟨rfl, rfl⟩

theorem cached_miss (hq : q.cache = some d) (hd : d.lifetime = none)
    (he : s.cache.held? (cacheKey d q kind payload) = none) {r : Except Fault Value} {t : Session σ}
    (hf : fetch.on s = (r, t)) (ht : t.cache = s.cache) : ∃ c, (cached q kind payload fetch).on s = (r, t.withCache c) ∧
      ∀ key, c.held? key = if cacheKey d q kind payload = key then entryOf r else s.cache.held? key := by
  have hpurge : s.cache.purge s.now (cacheKey d q kind payload) = s.cache :=
    Cache.purge_of_lasting fun e' he' => by cases he.symm.trans he'
  have hsame : entryOf r = none → ∀ key, t.cache.held? key =
      if cacheKey d q kind payload = key then entryOf r else s.cache.held? key := by
    intro hnone key
    rw [ht, hnone]
    split
    · rename_i hkey
      rw [← hkey, he]
    · rfl
  unfold cached Cache.lookup
  rw [hq]
  simp only
  rw [Run.on_bind_ok (Run.on_get _), Run.on_bind_ok (Run.on_set _ _), hpurge, Cache.get?_of_held?_none he]
  simp only
  cases r with
  | error e =>
    rw [Run.on_bind_error hf]
    exact ⟨t.cache, rfl, hsame rfl⟩
  | ok v =>
    rw [Run.on_bind_ok hf]
    cases hv : isUncached v with
    | true => exact ⟨t.cache, rfl, hsame (by rw [entryOf, hv, if_pos rfl])⟩
    | false =>
      refine ⟨_, rfl, fun key => ?_⟩
      rw [Cache.held?_set, hd, ht, entryOf, hv]
      rfl

end

end Session

inductive Read where
  | select
  | find
  | value (field : String) (default : Value)
  | column (field key : String)
  | count
  | aggregate (op field : String)

inductive Answer where
  | rows (rows : List Value)
  | row (row : Option Value)
  | value (v : Value)
  | number (n : Nat)

namespace Read

variable {σ : Type}

def run : Read → Run (Query σ) Answer
  | select => return .rows (← Query.select)
  | find => return .row (← Query.find)
  | value field default => return .value (← Query.value field default)
  | column field key => return .value (← Query.column field key)
  | count => return .number (← Query.count)
  | aggregate op field => return .value (← Query.aggregate op field)

def kind : Read → String
  | select => "select"
  | find => "find"
  | value _ _ => "value"
  | column _ _ => "column"
  | count => "count"
  | aggregate _ _ => "aggregate"

/-- The request that a read is compiled from. -/
def target (q : Request) : Read → Request
  | value field _ => q.select (.ofNames [field]) false
  | column field key => q.select (.ofText (Session.columnFields field key)) false
  | _ => q

def plan (r : KeyRule) (q : Request) : Read → Except Fault Plan
  | select | column _ _ => (r.find q false).map .find
  | find | value _ _ => (r.find q true).map .find
  | count => (r.countCommand q).map .command
  | aggregate op field => (r.aggregateCommand q op field).map .command

/-- The result that is kept, out of rows. -/
def reduce (rows : List Value) : Read → Value
  | select => .arr rows
  | find => rows.headD .null
  | value field _ => ((rows.head?).map (Session.valueAt field)).getD .null
  | column field key => Session.columnOf field key rows
  | count => ((rows.head?).bind (·.field? "n")).getD (.int 0)
  | aggregate _ _ => Session.aggregateOf rows

def answer (v : Value) : Read → Answer
  | select => .rows (Session.rowsOf v)
  | find => .row (Session.present v)
  | value _ default => .value ((Session.present v).getD default)
  | column _ _ => .value v
  | count => .number (Session.countOf v)
  | aggregate _ _ => .value v

def gather (q : Request) (p : Plan) (r : Read) : Run (Session σ) Value := do return r.reduce (← p.fetch q)

/-- Every read is one operation: it compiles, asks the cache or the store, and gives out the result. -/
def perform (q : Request) (r : Read) : Run (Session σ) Answer := do
  let p ← Session.compiled (r.plan · (r.target q))
  let v ← Session.cached (r.target q) r.kind p.toValue (r.gather (r.target q) p)
  return r.answer v

theorem plan_keeps {k : KeyRule} {q : Request} {r : Read} {p : Plan} (hp : r.plan k q = .ok p) : p.Keeps := by
  unfold plan at hp
  split at hp
  all_goals obtain ⟨x, hx, rfl⟩ := map_eq_ok.1 hp
  · trivial
  · trivial
  · trivial
  · trivial
  · obtain ⟨fs, -, hc⟩ := bind_eq_ok.1 hx
    cases hc
    exact Plan.keeps_build (by decide) _ _
  · unfold KeyRule.aggregateCommand at hx
    simp only at hx
    split at hx
    · cases hx
    · obtain ⟨fs, -, hc⟩ := bind_eq_ok.1 hx
      cases hc
      exact Plan.keeps_build (by decide) _ _

theorem gather_on {r : Read} {q : Request} {p : Plan} {s t : Session σ} {rows : Except Fault (List Value)}
    (h : (p.fetch q).on s = (rows, t)) : (r.gather q p).on s = (rows.map (r.reduce ·), t) := by
  unfold gather
  cases rows with
  | error e => rw [Run.on_bind_error h]; rfl
  | ok rows => rw [Run.on_bind_ok h]; rfl

theorem compiled_on {α : Type} (compile : KeyRule → Except Fault α) (s : Session σ) :
    (Session.compiled compile).on s = (compile s.keyRule, s) := by
  unfold Session.compiled
  rw [Run.on_bind_ok (Run.on_get _), Run.on_lift]

theorem trigger_on {s : Session σ} {hook : Hook} (hs : s.hasListener hook = false) (q : Request)
    (outcome : Option Value) : (Session.trigger hook q outcome).on s = (.ok none, s) := by
  have hcall := Session.call_eq_none q outcome _ hs
  unfold Session.trigger
  rw [Run.on_of, hcall]
  simp only [List.append_nil]

theorem compiled_map_on {α β γ : Type} (compile : KeyRule → Except Fault α) (f : α → β) (k : β → Run (Session σ) γ)
    (s : Session σ) : (Session.compiled (fun r => (compile r).map f) >>= k).on s
      = (Session.compiled compile >>= fun a => k (f a)).on s := by
  rw [Run.on_bind, Run.on_bind, compiled_on, compiled_on]
  cases compile s.keyRule with
  | error e => rfl
  | ok a => rfl

theorem perform_select {s : Session σ} (hs : s.hasListener .beforeSelect = false) (q : Request) :
    (Session.select q >>= fun rows => pure (.rows rows)).on s = (select.perform q).on s := by
  rw [Session.select, bind_assoc, Run.on_bind_ok (trigger_on hs _ _)]
  simp only [perform, gather, plan, target, reduce, answer, kind, bind_assoc, pure_bind]
  rw [compiled_map_on]
  rfl

theorem perform_find {s : Session σ} (hs : s.hasListener .beforeFind = false) (q : Request) :
    (Session.find q >>= fun row => pure (.row row)).on s = (find.perform q).on s := by
  rw [Session.find, bind_assoc, Run.on_bind_ok (trigger_on hs _ _)]
  simp only [perform, gather, plan, target, reduce, answer, kind, bind_assoc, pure_bind]
  rw [compiled_map_on]
  rfl

theorem perform_count (s : Session σ) (q : Request) :
    (Session.count q >>= fun n => pure (.number n)).on s = (count.perform q).on s := by
  simp only [Session.count, perform, gather, plan, target, reduce, answer, kind, bind_assoc, pure_bind]
  rw [compiled_map_on]
  rfl

/-- **A read is one operation on its finalized request**, if no listener waits before it. -/
theorem run_on {s : Session σ} (hselect : s.hasListener .beforeSelect = false)
    (hfind : s.hasListener .beforeFind = false) (q : Request) (r : Read) : r.run.on ⟨s, q⟩ =
      (((r.perform (s.finalize q)).on s).1, ⟨((r.perform (s.finalize q)).on s).2, s.finalize q⟩) := by
  have hlift : ∀ {α : Type} (op : Request → Run (Session σ) α) (f : α → Answer),
      (op (s.finalize q) >>= fun a => pure (f a)).on s = (r.perform (s.finalize q)).on s →
      (Query.finalized op >>= fun a => pure (f a)).on ⟨s, q⟩ =
        (((r.perform (s.finalize q)).on s).1, ⟨((r.perform (s.finalize q)).on s).2, s.finalize q⟩) := by
    intro α op f h
    rw [← h, Run.on_bind, Run.on_bind, Query.finalized_on]
    rcases (op (s.finalize q)).on s with ⟨e | a, t⟩
    · rfl
    · rfl
  cases r with
  | select => exact hlift Session.select _ (perform_select hselect _)
  | find => exact hlift Session.find _ (perform_find hfind _)
  | value field default =>
    have h := hlift (Session.value · field) (fun v => .value (v.getD default)) (by
      simp only [Session.value, perform, gather, plan, target, reduce, answer, kind, bind_assoc, pure_bind]
      rw [compiled_map_on]
      rfl)
    simp only [run, Query.value, bind_assoc, pure_bind]
    exact h
  | column field key =>
    refine hlift (Session.column · field key) _ ?_
    simp only [Session.column, perform, gather, plan, target, reduce, answer, kind, bind_assoc]
    rw [compiled_map_on]
    rfl
  | count => exact hlift Session.count _ (perform_count s _)
  | aggregate op field =>
    refine hlift (Session.aggregate · op field) _ ?_
    simp only [Session.aggregate, perform, gather, plan, target, reduce, answer, kind, bind_assoc]
    rw [compiled_map_on]
    rfl

end Read

structure ReadCall where
  read : Read
  request : Request

namespace ReadCall

def on (c : ReadCall) (s : Session Memory) : Except Fault Answer × Session Memory :=
  let (r, w) := c.read.run.on ⟨s, c.request⟩
  (r, w.session)

def bare (c : ReadCall) : ReadCall := { c with request := { c.request with cache := none } }

def target (c : ReadCall) (s : Session Memory) : Request := c.read.target (s.finalize c.request)

def plan (c : ReadCall) (s : Session Memory) : Except Fault Plan := c.read.plan s.keyRule (c.target s)

/-- What a call is kept as, out of the store. -/
def result (c : ReadCall) (s : Session Memory) : Except Fault Value := do
  let p ← c.plan s
  ((c.read.gather (c.target s) p).on s).1

def keyed (c : ReadCall) (s : Session Memory) (p : Plan) : Value :=
  .arr [.str (c.target s).tableName, .str c.read.kind, p.toValue]

/-- The key that a call without a key of its own is kept under. -/
def FiledUnder (c : ReadCall) (s : Session Memory) (key : String) : Prop :=
  ∃ p, c.plan s = .ok p ∧ key = Digest.key "query" (c.keyed s p)

/-- A call is kept under a derived key for good, and no predicate in it looks at that. -/
structure Derived (c : ReadCall) (s : Session Memory) : Prop where
  directive : ∃ tag, c.request.cache = some { tag := tag }
  blind : c.bare.plan s = c.plan s

section

variable {c : ReadCall} {s t : Session Memory} {database : Role → String} {p : Plan}

theorem on_eq (hs : s.Uniform database) (c : ReadCall) : c.on s = (c.read.perform (s.finalize c.request)).on s := by
  unfold on
  rw [Read.run_on hs.selects hs.finds]

theorem on_of_error (hs : s.Uniform database) {e : Fault} (hp : c.plan s = .error e) : c.on s = (.error e, s) := by
  have hcompiled := Read.compiled_on (c.read.plan · (c.target s)) s
  rw [show c.read.plan s.keyRule (c.target s) = .error e from hp] at hcompiled
  rw [on_eq hs]
  exact Run.on_bind_error hcompiled

theorem on_of_plan (hs : s.Uniform database) (hp : c.plan s = .ok p) : c.on s =
    (Session.cached (c.target s) c.read.kind p.toValue (c.read.gather (c.target s) p) >>= fun v =>
      pure (c.read.answer v)).on s := by
  have hcompiled := Read.compiled_on (c.read.plan · (c.target s)) s
  rw [show c.read.plan s.keyRule (c.target s) = .ok p from hp] at hcompiled
  rw [on_eq hs]
  exact Run.on_bind_ok hcompiled

theorem cacheKey_eq {d : CacheDirective} (hd : d.key = none) (c : ReadCall) (s : Session Memory) (p : Plan) :
    Session.cacheKey d (c.target s) c.read.kind p.toValue = Digest.key "query" (c.keyed s p) := by
  rw [Session.cacheKey, hd, Option.getD_none, keyed]

theorem target_bare (c : ReadCall) (s : Session Memory) : c.bare.target s = { c.target s with cache := none } := by
  obtain ⟨r, q⟩ := c
  cases r with
  | column field key =>
    unfold bare target Read.target Request.select
    simp only
    split <;> rfl
  | _ => rfl

theorem cache_target (c : ReadCall) (s : Session Memory) : (c.target s).cache = c.request.cache := by
  obtain ⟨r, q⟩ := c
  cases r with
  | column field key =>
    unfold target Read.target Request.select
    simp only
    split <;> rfl
  | _ => rfl

/-- **Without a directive a call gives what is in the store.** -/
theorem bare_on (hs : s.Uniform database) (hb : c.bare.plan s = c.plan s) :
    (c.bare.on s).1 = (c.result s).map c.read.answer := by
  unfold result
  cases hp : c.plan s with
  | error e => rw [on_of_error hs (hb.trans hp)]; rfl
  | ok p =>
    have hgather : c.bare.read.gather (c.bare.target s) p =
        (c.read.gather (c.target s) p : Run (Session Memory) Value) := by
      rw [target_bare]
      cases p with
      | find p => rfl
      | command p => rfl
    have hcache : (c.bare.target s).cache = none := cache_target c.bare s
    rw [on_of_plan hs (hb.trans hp), hgather, Session.cached, hcache]
    simp only
    rw [Run.on_bind]
    rcases hon : (c.read.gather (c.target s) p).on s with ⟨e | v, t⟩
    · simp only [Bind.bind, Except.bind, hon]; rfl
    · simp only [Bind.bind, Except.bind, hon]; rfl

theorem gather_on (hs : s.Uniform database) (hp : c.plan s = .ok p) : ∃ t, Session.Carries s t ∧ t.cache = s.cache ∧
    (c.read.gather (c.target s) p).on s = (c.result s, t) := by
  obtain ⟨t, ht, hon⟩ := Session.plan_on hs (c.target s) (Read.plan_keeps hp)
  have hcache : t.cache = s.cache := by
    have := (p.cacheFree_fetch (c.target s)).cache s
    rwa [hon] at this
  have hgather := Read.gather_on (r := c.read) hon
  refine ⟨t, ht, hcache, ?_⟩
  unfold result
  rw [hp, hgather]
  simp only [Bind.bind, Except.bind, hgather]

/-- **What a call is kept as is made of the rows of the store.** -/
theorem result_eq (hs : s.Uniform database) (hp : c.plan s = .ok p) : c.result s =
    ((p.rows s.pool.state.store (database (Session.readRole (c.target s))) (c.target s).tableName).map s.exposed).map
      (c.read.reduce ·) := by
  obtain ⟨t, -, hon⟩ := Session.plan_on hs (c.target s) (Read.plan_keeps hp)
  unfold result
  rw [hp]
  simp only [Bind.bind, Except.bind, Read.gather_on (r := c.read) hon]

theorem of_carries (hs : s.Uniform database) (h : Session.Carries s t) (c : ReadCall) :
    c.target t = c.target s ∧ c.plan t = c.plan s ∧ c.result t = c.result s := by
  have htarget : c.target t = c.target s := by
    unfold target
    rw [h.finalize]
  have hplan : c.plan t = c.plan s := by
    unfold plan
    rw [htarget, h.keyRule]
  refine ⟨htarget, hplan, ?_⟩
  cases hp : c.plan s with
  | error e =>
    unfold result
    rw [hplan, hp]
    simp only [Bind.bind, Except.bind]
  | ok p =>
    have hexposed : t.exposed = s.exposed := by
      funext rows
      rw [Session.exposed, Session.exposed, h.keyRule]
    rw [result_eq hs hp, result_eq (h.uniform hs) (hplan.trans hp), h.pool.store, hexposed, htarget]

end

/-- Only such calls have left something under their keys, and the session goes on otherwise as it was. -/
structure Filed (R : ReadCall → Prop) (s t : Session Memory) : Prop where
  carries : Session.Carries s t
  held : ∀ c key e, R c → c.FiledUnder s key → t.cache.held? key = some e →
    ∃ c', R c' ∧ c'.FiledUnder s key ∧ Session.entryOf (c'.result s) = some e

def Fresh (R : ReadCall → Prop) (s : Session Memory) : Prop :=
  ∀ c key, R c → c.FiledUnder s key → s.cache.held? key = none

/-- Calls that share a key have the same use of what one of them leaves there. -/
def Agree (R : ReadCall → Prop) (s : Session Memory) : Prop :=
  ∀ c c' key e, R c → R c' → c.FiledUnder s key → c'.FiledUnder s key → Session.entryOf (c.result s) = some e →
    (c'.bare.on s).1 = .ok (c'.read.answer e.value)

/-- Every call gives what it gives without its directive. -/
def Transparent : List ReadCall → Session Memory → Prop
  | [], _ => True
  | c :: cs, s => (c.on s).1 = (c.bare.on s).1 ∧ Transparent cs (c.on s).2

section

variable {R : ReadCall → Prop} {c : ReadCall} {s t : Session Memory} {database : Role → String} {key : String}

theorem Fresh.filed (h : Fresh R s) : Filed R s s :=
  ⟨Session.Carries.refl s, fun c key e hc hk he => by
    rw [h c key hc hk] at he
    cases he⟩

theorem on_held (hs : s.Uniform database) (hc : c.Derived s) (ht : Session.Carries s t) (hk : c.FiledUnder s key)
    {e : CacheEntry} (he : t.cache.held? key = some e) (hl : e.expiry = none) :
    c.on t = (.ok (c.read.answer e.value), t) := by
  obtain ⟨p, hp, rfl⟩ := hk
  obtain ⟨tag, hd⟩ := hc.directive
  obtain ⟨htarget, hplan, -⟩ := of_carries hs ht c
  rw [keyed, ← htarget, ← keyed, ← cacheKey_eq (d := { tag := tag }) rfl] at he
  rw [on_of_plan (ht.uniform hs) (hplan.trans hp),
    Run.on_bind_ok (Session.cached_hit ((cache_target c t).trans hd) he hl), Run.on_pure]

theorem on_unheld (hs : s.Uniform database) (hc : c.Derived s) (ht : Session.Carries s t) (hk : c.FiledUnder s key)
    (he : t.cache.held? key = none) : ∃ u, Session.Carries t u ∧
      (∀ key', u.cache.held? key' = if key = key' then Session.entryOf (c.result s) else t.cache.held? key') ∧
      c.on t = ((c.result s).map (c.read.answer ·), u) := by
  obtain ⟨p, hp, rfl⟩ := hk
  obtain ⟨tag, hd⟩ := hc.directive
  obtain ⟨htarget, hplan, hresult⟩ := of_carries hs ht c
  have hst := ht.uniform hs
  obtain ⟨u, hu, hcache, hon⟩ := gather_on hst (hplan.trans hp)
  rw [hresult] at hon
  rw [keyed, ← htarget, ← keyed, ← cacheKey_eq (d := { tag := tag }) rfl] at he ⊢
  obtain ⟨cache, hmiss, hheld⟩ := Session.cached_miss ((cache_target c t).trans hd) rfl he hon hcache
  refine ⟨u.withCache cache, ⟨hu.pool, hu.naming, hu.listeners⟩, hheld, ?_⟩
  rw [on_of_plan hst (hplan.trans hp), Run.on_bind, hmiss]
  cases c.result s with
  | error e => rfl
  | ok v => rfl

/-- **What one call does**: it gives what the store has or what another one left, and leaves the cache filed. -/
theorem Filed.on (hs : s.Uniform database) (hR : ∀ c, R c → c.Derived s) (h : Filed R s t) (hc : R c) :
    Filed R s (c.on t).2 ∧ ((c.on t).1 = (c.result s).map (c.read.answer ·) ∨
      ∃ key e c', R c' ∧ c.FiledUnder s key ∧ c'.FiledUnder s key ∧ Session.entryOf (c'.result s) = some e ∧
        (c.on t).1 = .ok (c.read.answer e.value)) := by
  obtain ⟨-, hplan, -⟩ := of_carries hs h.carries c
  cases hp : c.plan s with
  | error e =>
    rw [on_of_error (h.carries.uniform hs) (hplan.trans hp), result, hp]
    exact ⟨h, .inl rfl⟩
  | ok p =>
    obtain ⟨key, hk⟩ : ∃ key, c.FiledUnder s key := ⟨_, p, hp, rfl⟩
    cases he : t.cache.held? key with
    | some e =>
      obtain ⟨c', hc', hk', hentry⟩ := h.held c key e hc hk he
      rw [on_held hs (hR c hc) h.carries hk he (Session.entryOf_eq_some hentry).2]
      exact ⟨h, .inr ⟨key, e, c', hc', hk, hk', hentry, rfl⟩⟩
    | none =>
      obtain ⟨u, hu, hheld, hon⟩ := on_unheld hs (hR c hc) h.carries hk he
      rw [hon]
      refine ⟨⟨h.carries.trans hu, fun c' key' e hc' hk' he' => ?_⟩, .inl rfl⟩
      rw [hheld] at he'
      by_cases hkey : key = key'
      · rw [if_pos hkey] at he'
        exact ⟨c, hc, hkey ▸ hk, he'⟩
      · rw [if_neg hkey] at he'
        exact h.held c' key' e hc' hk' he'

theorem bare_of_carries (hs : s.Uniform database) (h : Session.Carries s t) (hc : c.Derived s) :
    (c.bare.on t).1 = (c.result s).map (c.read.answer ·) := by
  obtain ⟨-, hplan, hresult⟩ := of_carries hs h c
  obtain ⟨-, hbare, -⟩ := of_carries hs h c.bare
  rw [bare_on (h.uniform hs) (hbare.trans (hc.blind.trans hplan.symm)), hresult]

theorem agree_of_pair {c' : ReadCall} (hs : s.Uniform database) (hc : c.Derived s) (hc' : c'.Derived s)
    (hk : c.FiledUnder s key) (hk' : c'.FiledUnder s key) (hfree : s.cache.held? key = none) {e : CacheEntry}
    (he : Session.entryOf (c.result s) = some e) (h : Transparent [c, c'] s) :
    (c'.bare.on s).1 = .ok (c'.read.answer e.value) := by
  obtain ⟨u, hu, hheld, hon⟩ := on_unheld hs hc (Session.Carries.refl s) hk hfree
  have hrun := h.2.1
  rw [hon] at hrun
  simp only at hrun
  have hkept : u.cache.held? key = some e := by rw [hheld, if_pos rfl, he]
  rw [on_held hs hc' hu hk' hkept (Session.entryOf_eq_some he).2, bare_of_carries hs hu hc'] at hrun
  rw [bare_of_carries hs (Session.Carries.refl s) hc']
  exact hrun.symm

/-- **Runs of calls are transparent just if calls that share a key have the same use of what is there.** -/
theorem transparent_iff_agree (hs : s.Uniform database) (hR : ∀ c, R c → c.Derived s) (hfresh : Fresh R s) :
    (∀ cs, (∀ c ∈ cs, R c) → Transparent cs s) ↔ Agree R s := by
  constructor
  · intro h c c' key e hc hc' hk hk' he
    exact agree_of_pair hs (hR c hc) (hR c' hc') hk hk' (hfresh c key hc hk) he (h [c, c'] (by simp [hc, hc']))
  · intro h cs
    have hall : ∀ (cs : List ReadCall) t, Filed R s t → (∀ c ∈ cs, R c) → Transparent cs t := by
      intro cs
      induction cs with
      | nil => exact fun _ _ _ => trivial
      | cons c cs ih =>
        intro t ht hcs
        obtain ⟨hc, hcs⟩ := List.forall_mem_cons.1 hcs
        obtain ⟨hfiled, hgives⟩ := ht.on hs hR hc
        refine ⟨?_, ih _ hfiled hcs⟩
        rw [bare_of_carries hs ht.carries (hR c hc)]
        rcases hgives with hstore | ⟨key, e, c', hc', hk, hk', he, hon⟩
        · exact hstore
        · have hagree := h c' c key e hc' hc hk' hk he
          rw [bare_of_carries hs (Session.Carries.refl s) (hR c hc)] at hagree
          rw [hon]
          exact hagree.symm
    exact hall cs s hfresh.filed

end

end ReadCall

end DocQuery
