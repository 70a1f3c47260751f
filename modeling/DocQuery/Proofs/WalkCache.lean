import DocQuery.Proofs.CacheKey
import DocQuery.Proofs.WalkRequest

/-!
# The batches of a walk through the cache

What is live under the key of a batch is given out in its place.  A cache that is honest about the batches of a walk
(`Stands`) stays so if batches that share a key are the same, or nothing stays live (`Stands.select`).  Keys that are
derived tell batches apart as far as digests do (`told_of_digests`); a key that the request names does not.
-/
namespace DocQuery

namespace Session

section

variable {σ : Type} {s t : Session σ} {q : Request} {d : CacheDirective} {kind : String} {payload : Value}
  {fetch : Run (Session σ) Value}

theorem cached_of_live (hq : q.cache = some d) {v : Value}
    (hv : s.cache.get? s.now (cacheKey d q kind payload) = some v) :
    (cached q kind payload fetch).on s = (.ok v, s) := by
  have hpurge : s.cache.purge s.now (cacheKey d q kind payload) = s.cache := by
    unfold Cache.get? at hv
    unfold Cache.purge
    obtain ⟨e, he, hlive⟩ := Option.bind_eq_some_iff.1 hv
    rw [he]
    split at hlive
    · rename_i h
      simp only [h, if_true]
    · cases hlive
  unfold cached Cache.lookup
  rw [hq]
  simp only
  rw [Run.on_bind_ok (Run.on_get _), Run.on_bind_ok (Run.on_set _ _), hpurge, hv]
  rfl

/-- What a result makes of a cache that has nothing live under its key. -/
def cacheWith (d : CacheDirective) (key : String) (now : Nat) (c : Cache) : Except Fault Value → Cache
  | .ok v => if isUncached v then c.purge now key else (c.purge now key).set now key v d.tag d.lifetime
  | .error _ => c.purge now key

theorem cached_of_missing (hq : q.cache = some d) (hv : s.cache.get? s.now (cacheKey d q kind payload) = none)
    (hfree : CacheFree fetch) {r : Except Fault Value} (hon : fetch.on s = (r, t)) (hnow : t.now = s.now) :
    (cached q kind payload fetch).on s =
      (r, t.withCache (cacheWith d (cacheKey d q kind payload) s.now s.cache r)) := by
  have hpurged := hfree s (s.cache.purge s.now (cacheKey d q kind payload))
  rw [hon] at hpurged
  unfold cached Cache.lookup
  rw [hq]
  simp only
  rw [Run.on_bind_ok (Run.on_get _), Run.on_bind_ok (Run.on_set _ _), hv]
  simp only
  cases r with
  | error e => exact Run.on_bind_error hpurged
  | ok v =>
    refine (Run.on_bind_ok hpurged).trans ?_
    cases hkept : isUncached v with
    | true =>
      simp only [cacheWith, hkept, if_true]
      rfl
    | false =>
      simp only [cacheWith, hkept, Bool.false_eq_true, if_false, Bool.not_false, if_true]
      rw [Run.on_bind_ok (Run.on_modify _ _), Run.on_pure]
      rw [← hnow]
      rfl

theorem wellFormed_cacheWith {c : Cache} (hc : c.WellFormed) (key : String) (now : Nat) (r : Except Fault Value) :
    (cacheWith d key now c r).WellFormed := by
  cases r with
  | error e => exact hc.purge
  | ok v =>
    rw [cacheWith]
    cases isUncached v with
    | true => exact hc.purge
    | false => exact hc.purge.set v d.tag d.lifetime

theorem get?_cacheWith {c : Cache} (hc : c.WellFormed) {key : String} {now : Nat} {r : Except Fault Value}
    {key' : String} {v : Value} (hv : (cacheWith d key now c r).get? now key' = some v) :
    c.get? now key' = some v ∨ (key' = key ∧ r = .ok v ∧ d.lifetime ≠ some 0) := by
  cases r with
  | error e =>
    left
    rwa [cacheWith, Cache.get?_purge hc] at hv
  | ok w =>
    rw [cacheWith] at hv
    split at hv
    · left
      rwa [Cache.get?_purge hc] at hv
    · rw [Cache.get?_set] at hv
      split at hv
      · rename_i hkey
        split at hv
        · cases hv
        · rename_i hlasting
          cases hv
          exact .inr ⟨hkey.symm, rfl, hlasting⟩
      · left
        rwa [Cache.get?_purge hc] at hv

end

theorem fetch_outcome {s : Session Memory} (hm : s.pool.driver = Memory.driver) (q : Request) (p : FindPayload) :
    ∃ r t, (fetch q p).on s = (r, t) ∧ Carries s t ∧ ∀ rows, r = .ok rows → ∃ ns f,
      s.collection q (s.slotFor q) = .ok ns ∧ Filter.ofValue p.filter = .ok f ∧
        rows = s.exposed (p.rowsOf f (s.pool.state.store.documents ns)) := by
  obtain ⟨t, ht, ⟨ns, f, hns, hf, hopen⟩ | ⟨-, e, he⟩⟩ := openRows_on hm q p
  · obtain ⟨u, hu, hdeliver⟩ := deliver_on (ht.pool.driver.trans hm) q
      (p.rowsOf f (s.pool.state.store.documents ns))
    refine ⟨_, u, (Run.on_bind_ok hopen).trans hdeliver, ht.trans hu, fun rows h => ⟨ns, f, hns, hf, ?_⟩⟩
    cases h
    rw [exposed, ht.keyRule]
  · exact ⟨_, t, Run.on_bind_error he, ht, fun rows h => by cases h⟩

end Session

namespace Walk

open Session (Carries)

def Gives (s : Session Memory) (docs : List Value) (asked : Request) (rows : List Value) : Prop :=
  ∃ f, s.keyRule.readFilter (s.finalize asked) = .ok f ∧ rows = s.keyRule.rows (s.finalize asked) f docs

def KeptUnder (s : Session Memory) (asked : Request) (key : String) : Prop :=
  ∃ d p, asked.cache = some d ∧ s.keyRule.find (s.finalize asked) false = .ok p ∧
    key = Session.cacheKey d (s.finalize asked) "select" p.toValue

def Told (s : Session Memory) (docs : List Value) (A : Request → Prop) : Prop :=
  ∀ asked asked' key, A asked → A asked' → KeptUnder s asked key → KeptUnder s asked' key →
    ∀ rows, Gives s docs asked rows → Gives s docs asked' rows

/-- A session stands where a walk can go on: it reads what the first one did, and what is live under the key of a batch
is that batch. -/
structure Stands (s : Session Memory) (docs : List Value) (A : Request → Prop) (t : Session Memory) : Prop where
  carries : Carries s t
  now : t.now = s.now
  wellFormed : t.cache.WellFormed
  honest : ∀ asked key v, A asked → KeptUnder s asked key → t.cache.get? s.now key = some v →
    Gives s docs asked (Session.rowsOf v)

section

variable {s t : Session Memory} {docs : List Value} {A : Request → Prop} {asked : Request} {ns : Namespace}

def found {σ : Type} (q : Request) (p : FindPayload) : Run (Session σ) Value := do
  return .arr (← Session.fetch q p)

/-- A request is read from no other collection, whatever slot is drawn for it. -/
def ReadsOnly (s : Session Memory) (q : Request) (ns : Namespace) : Prop :=
  ∀ n ns', s.collection q (s.settings.select (Session.readRole q) n) = .ok ns' → ns' = ns

theorem readFilter_of_find {r : KeyRule} {q : Request} {one : Bool} {p : FindPayload} (hp : r.find q one = .ok p) :
    r.readFilter q = Filter.ofValue p.filter := by
  obtain ⟨fs, hfs, hpure⟩ := bind_eq_ok.1 hp
  cases hpure
  unfold KeyRule.readFilter
  rw [hfs]
  rfl

theorem Stands.terms (h : Stands s docs A t) : t.terms = s.terms := by
  unfold Session.terms Session.settings
  rw [h.carries.pool.settings, h.carries.naming, h.carries.listeners, h.now]

theorem Stands.gather (h : Stands s docs A t) (hs : s.Quiet) (hns : ReadsOnly s (s.finalize asked) ns)
    (hdocs : s.pool.state.store.documents ns = docs) {p : FindPayload}
    (hp : s.keyRule.find (s.finalize asked) false = .ok p) :
    ∃ (r : Except Fault (List Value)) (u : Session Memory), (found (s.finalize asked) p).on t = (r.map Value.arr, u) ∧
      Carries s u ∧ u.now = t.now ∧ u.cache = t.cache ∧ ∀ rows, r = .ok rows → Gives s docs asked rows := by
  obtain ⟨r, u, hfetch, hu, hgives⟩ := Session.fetch_outcome (h.carries.quiet hs).driver (s.finalize asked) p
  have hkept := Session.keeps_fetch (s.finalize asked) p t
  rw [hfetch] at hkept
  refine ⟨r, u, ?_, h.carries.trans hu, Session.now_of_terms (congrArg Prod.fst hkept), congrArg Prod.snd hkept,
    fun rows hr => ?_⟩
  · cases r with
    | error e => exact Run.on_bind_error hfetch
    | ok rows => exact Run.on_bind_ok hfetch
  · obtain ⟨ns', f, hns', hf, rfl⟩ := hgives rows hr
    have hslot : t.slotFor (s.finalize asked) =
        s.settings.select (Session.readRole (s.finalize asked)) (t.draws.draw t.draws.next) := by
      unfold Session.slotFor Session.settings
      rw [h.carries.pool.settings]
    rw [h.carries.collection, hslot] at hns'
    obtain rfl := hns _ _ hns'
    refine ⟨f, (readFilter_of_find hp).trans hf, ?_⟩
    rw [Session.exposed, h.carries.keyRule, h.carries.pool.store, hdocs, KeyRule.rows_eq _ _ p.filter,
      ← KeyRule.options_find hp]

theorem cacheFree_found {σ : Type} (q : Request) (p : FindPayload) :
    Session.CacheFree (found q p : Run (Session σ) Value) :=
  (Session.cacheFree_fetch q p).bind fun _ => Session.cacheFree_pure _

theorem select_of_find {σ : Type} {t : Session σ} {q : Request} {p : FindPayload}
    (ht : t.hasListener .beforeSelect = false) (hp : t.keyRule.find q false = .ok p) : (Session.select q).on t =
      (Session.cached q "select" p.toValue (found q p) >>= fun v => pure (Session.rowsOf v)).on t := by
  have hcompiled := Read.compiled_on (·.find q false) t
  rw [hp] at hcompiled
  unfold Session.select
  rw [Run.on_bind_ok (Read.trigger_on ht _ _)]
  exact Run.on_bind_ok hcompiled

theorem select_of_find_error {σ : Type} {t : Session σ} {q : Request} {e : Fault}
    (ht : t.hasListener .beforeSelect = false) (hp : t.keyRule.find q false = .error e) :
    (Session.select q).on t = (.error e, t) := by
  have hcompiled := Read.compiled_on (·.find q false) t
  rw [hp] at hcompiled
  unfold Session.select
  rw [Run.on_bind_ok (Read.trigger_on ht _ _)]
  exact Run.on_bind_error hcompiled

/-- **One batch of a walk**: it fails or gives what the store has, and the walk can go on. -/
theorem Stands.select (h : Stands s docs A t) (hs : s.Quiet) (hns : ReadsOnly s (s.finalize asked) ns)
    (hdocs : s.pool.state.store.documents ns = docs) (ha : A asked)
    (htold : Told s docs A ∨ ∀ d, asked.cache = some d → d.lifetime = some 0) :
    ∃ r u, (Session.select (s.finalize asked)).on t = (r, u) ∧ Stands s docs A u ∧
      ∀ rows, r = .ok rows → Gives s docs asked rows := by
  have hlisteners := (h.carries.quiet hs).listeners
  have hkeys := h.carries.keyRule
  cases hp : s.keyRule.find (s.finalize asked) false with
  | error e =>
    exact ⟨_, t, select_of_find_error hlisteners (by rw [hkeys, hp]), h, fun rows hr => by cases hr⟩
  | ok p =>
    rw [select_of_find hlisteners (by rw [hkeys, hp])]
    obtain ⟨r, u, hgather, hu, hnow, hcache, hgives⟩ := h.gather hs hns hdocs hp
    cases hd : asked.cache with
    | none =>
      have hcached : Session.cached (s.finalize asked) "select" p.toValue (found (s.finalize asked) p) =
          (found (s.finalize asked) p : Run (Session Memory) Value) := by
        unfold Session.cached
        rw [show (s.finalize asked).cache = none from hd]
      rw [hcached, Run.on_bind, hgather]
      refine ⟨r, u, ?_, ⟨hu, hnow.trans h.now, hcache ▸ h.wellFormed, hcache ▸ h.honest⟩, hgives⟩
      cases r <;> rfl
    | some d =>
      have hq : (s.finalize asked).cache = some d := hd
      have hkey : KeptUnder s asked (Session.cacheKey d (s.finalize asked) "select" p.toValue) := ⟨d, p, hd, hp, rfl⟩
      cases hv : t.cache.get? t.now (Session.cacheKey d (s.finalize asked) "select" p.toValue) with
      | some v =>
        rw [Run.on_bind_ok (Session.cached_of_live hq hv), Run.on_pure]
        rw [h.now] at hv
        refine ⟨_, t, rfl, h, fun rows hr => ?_⟩
        cases hr
        exact h.honest asked _ v ha hkey hv
      | none =>
        rw [Run.on_bind, Session.cached_of_missing hq hv (cacheFree_found _ p) hgather hnow]
        refine ⟨r, u.withCache (Session.cacheWith d (Session.cacheKey d (s.finalize asked) "select" p.toValue) t.now
          t.cache (r.map Value.arr)), ?_, ⟨⟨hu.pool, hu.naming, hu.listeners⟩, hnow.trans h.now,
          Session.wellFormed_cacheWith h.wellFormed _ _ _, fun asked' key' v ha' hk' hv' => ?_⟩, hgives⟩
        · cases r <;> rfl
        · rw [← h.now] at hv'
          rcases Session.get?_cacheWith h.wellFormed hv' with hbefore | ⟨rfl, hr, hlasting⟩
          · rw [h.now] at hbefore
            exact h.honest asked' key' v ha' hk' hbefore
          -- what has just been kept under the key is what the other batch gives as well
          · obtain ⟨rows, hrows, rfl⟩ := map_eq_ok.1 hr
            rcases htold with htold | hbrief
            · exact htold asked asked' _ ha ha' hkey hk' rows (hgives rows hrows)
            · exact absurd (hbrief d hd) hlasting

end

/-! ## Keys -/

section

variable {s : Session Memory} {docs : List Value} {q asked asked' : Request} {size : Nat} {column : String}
  {bounds : Value → Prop}

def keyed (s : Session Memory) (asked : Request) (p : FindPayload) : Value :=
  .arr [.str (s.finalize asked).tableName, .str "select", p.toValue]

/-- No two texts that the derived keys of batches are made of have one digest. -/
def DigestsApart (s : Session Memory) (A : Request → Prop) : Prop :=
  ∀ asked asked' p p', A asked → A asked' → s.keyRule.find (s.finalize asked) false = .ok p →
    s.keyRule.find (s.finalize asked') false = .ok p' →
    Digest.ofText (keyed s asked p).text = Digest.ofText (keyed s asked' p').text →
      (keyed s asked p).text = (keyed s asked' p').text

theorem Asks.cache (h : Asks q size column bounds asked) : asked.cache = q.cache := by
  cases h <;> rfl

theorem Asks.scope (h : Asks q size column bounds asked) (s : Session Memory) :
    (s.finalize asked).toScope = (s.finalize (firstBatch q size column)).toScope := by
  cases h <;> rfl

theorem rows_congr {r : KeyRule} {q q' : Request} (h : q'.toScope = q.toScope) (f : Filter) (docs : List Value) :
    r.rows q' f docs = r.rows q f docs := by
  obtain ⟨scope, filter⟩ := q
  obtain ⟨scope', filter'⟩ := q'
  obtain rfl : scope' = scope := h
  rfl

/-- **Derived keys tell batches apart** as far as their digests do. -/
theorem told_of_digests (hkey : ∀ d, q.cache = some d → d.key = none)
    (hapart : DigestsApart s (Asks q size column bounds)) : Told s docs (Asks q size column bounds) := by
  rintro asked asked' _ ha ha' ⟨d, p, hd, hp, rfl⟩ ⟨d', p', hd', hp', hsame⟩ rows ⟨f, hf, rfl⟩
  have hnone : d.key = none := hkey d (ha.cache ▸ hd)
  have hnone' : d'.key = none := hkey d' (ha'.cache ▸ hd')
  rw [Session.cacheKey, Session.cacheKey, hnone, hnone', Option.getD_none, Option.getD_none] at hsame
  have hdigest : Digest.ofText (keyed s asked p).text = Digest.ofText (keyed s asked' p').text := by
    have hlist := congrArg String.toList hsame
    simp only [Digest.key, String.toList_append] at hlist
    exact String.toList_inj.1 (List.append_cancel_left hlist)
  have hkeyed := Value.text_injective (hapart asked asked' p p' ha ha' hp hp' hdigest)
  unfold keyed FindPayload.toValue at hkeyed
  simp only [Value.arr.injEq, List.cons.injEq, and_true] at hkeyed
  obtain ⟨-, -, hfilter, -⟩ := hkeyed
  refine ⟨f, ?_, rows_congr ((ha.scope s).trans (ha'.scope s).symm) f docs⟩
  rw [readFilter_of_find hp', ← hfilter, ← readFilter_of_find hp]
  exact hf

end

/-! ## Keys that requests name -/

section

variable {σ β : Type} {s t : Session σ} {q : Request} {d : CacheDirective} {key : String} {size : Nat}
  {column : String} {rows : List Value} {v : Value}

theorem cacheKey_of_key (hk : d.key = some key) (q : Request) (kind : String) (payload : Value) :
    Session.cacheKey d q kind payload = key := by
  rw [Session.cacheKey, hk, Option.getD_some]

theorem live_of_select (hs : s.hasListener .beforeSelect = false) (hd : q.cache = some d) (hk : d.key = some key)
    (hl : d.lifetime ≠ some 0) (hon : (Session.select q).on s = (.ok rows, t)) (hr : rows ≠ []) :
    (∃ p, s.keyRule.find q false = .ok p) ∧ ∃ v, t.cache.get? s.now key = some v ∧ Session.rowsOf v = rows := by
  cases hp : s.keyRule.find q false with
  | error e => cases (select_of_find_error hs hp).symm.trans hon
  | ok p =>
    refine ⟨⟨p, rfl⟩, ?_⟩
    have hkey : Session.cacheKey d q "select" p.toValue = key := cacheKey_of_key hk _ _ _
    rw [select_of_find hs hp] at hon
    obtain ⟨v, u, hcached, hpure⟩ := Run.bind_eq_ok.1 hon
    cases hpure
    cases hv : s.cache.get? s.now (Session.cacheKey d q "select" p.toValue) with
    | some w =>
      cases (Session.cached_of_live hd hv).symm.trans hcached
      exact ⟨v, hkey ▸ hv, rfl⟩
    | none =>
      rcases hfound : (found q p : Run (Session σ) Value).on s with ⟨r, u'⟩
      have hnow : u'.now = s.now := by
        have hkept := ((Session.keeps_fetch q p).bind fun rows => Run.keeps_pure (Value.arr rows)) s
        rw [show (Session.fetch q p >>= fun rows => pure (Value.arr rows)).on s = (r, u') from hfound] at hkept
        exact Session.now_of_terms (congrArg Prod.fst hkept)
      cases (Session.cached_of_missing hd hv (cacheFree_found q p) hfound hnow).symm.trans hcached
      obtain ⟨found, _, -, hpure⟩ := Run.bind_eq_ok.1 hfound
      cases hpure
      have hkept : Session.isUncached (.arr found) = false := by
        cases found with
        | nil => exact absurd rfl hr
        | cons row rest => rfl
      refine ⟨.arr found, ?_, rfl⟩
      simp only [Session.withCache, Session.cacheWith, hkept, Bool.false_eq_true, if_false, hkey]
      rw [Cache.get?_set, if_pos rfl, if_neg hl]

theorem select_of_live (ht : t.hasListener .beforeSelect = false) (hd : q.cache = some d) (hk : d.key = some key)
    {p : FindPayload} (hp : t.keyRule.find q false = .ok p) (hv : t.cache.get? t.now key = some v) :
    (Session.select q).on t = (.ok (Session.rowsOf v), t) := by
  rw [← cacheKey_of_key hk q "select" p.toValue] at hv
  rw [select_of_find ht hp, Run.on_bind_ok (Session.cached_of_live hd hv), Run.on_pure]

theorem bound_contributes (r : KeyRule) (scope : Scope) (column : String) (last : Value) :
    ∃ items, r.contributes scope (.and, some column, .plain (.single ">" last)) = .ok items := by
  have hitems : ∀ (key : String) (fields : List String), ∃ items,
      r.items key (.single ">" last) fields = .ok items := by
    intro key fields
    induction fields with
    | nil => exact ⟨[], rfl⟩
    | cons field fields ih =>
      obtain ⟨rest, hrest⟩ := ih
      exact ⟨_, by rw [KeyRule.items, KeyRule.item_bound, hrest]; rfl⟩
  simp only [KeyRule.contributes, KeyRule.contribution]
  rw [KeyRule.plainContribution_some]
  exact hitems _ _

theorem find_nextBatch {p : FindPayload} (hp : s.keyRule.find (s.finalize (firstBatch q size column)) false = .ok p)
    (last : Value) : ∃ p', s.keyRule.find (s.finalize (nextBatch q size column last)) false = .ok p' := by
  obtain ⟨fs, hfs, -⟩ := bind_eq_ok.1 hp
  have hall := (KeyRule.compileFilter_eq_ok.1 hfs).1
  have hnext : ∀ e ∈ (s.finalize (nextBatch q size column last)).filter.entries,
      ∃ items, s.keyRule.contributes (s.finalize (nextBatch q size column last)).toScope e = .ok items := by
    intro e he
    rcases Where.mem_entries_behind he with he | rfl
    · exact hall e he
    · exact bound_contributes _ _ _ _
  have hcompile := KeyRule.compileFilter_eq_ok.2 ⟨hnext, rfl⟩
  exact ⟨_, by rw [KeyRule.find, hcompile]; rfl⟩

/-- **While a batch is live under the key of the request, a walk hands it over again and again.** -/
theorem batches_repeat (hs : s.hasListener .beforeSelect = false) (hd : q.cache = some d) (hk : d.key = some key)
    {p : FindPayload} (hp : s.keyRule.find (s.finalize (firstBatch q size column)) false = .ok p) (hr : rows ≠ [])
    (hlast : (lastOf column rows).isNull = false) (hrows : Session.rowsOf v = rows) :
    ∀ (n : Nat) (w : Walk σ (List (List Value))), w.query.session.terms = s.terms →
      w.query.session.cache.get? s.now key = some v →
      ∃ w', (batches (keeping fun _ => true) q size column n rows).on w = (.ok none, w') ∧
        w'.memory = w.memory ++ List.replicate n rows
  | 0, w, _, _ => ⟨w, rfl, (List.append_nil _).symm⟩
  | n + 1, w, hw, hv => by
    obtain ⟨p', hp'⟩ := find_nextBatch hp (lastOf column rows)
    have hselect : (Session.select (s.finalize (nextBatch q size column (lastOf column rows)))).on w.query.session =
        (.ok rows, w.query.session) := by
      have hkeys : w.query.session.keyRule = s.keyRule := congrArg Settings.keyRule (Session.settings_of_terms hw)
      rw [← hrows] at hp' ⊢
      exact select_of_live ((Session.hasListener_of_terms hw _).trans hs)
        (q := s.finalize (nextBatch q size column (lastOf column (Session.rowsOf v)))) hd hk (hkeys ▸ hp')
        (by rw [Session.now_of_terms hw, hv])
    have hnext := queried_select_eq (s := s) (w := { w with memory := w.memory ++ [rows] }.withRequest
      (nextBatch q size column (lastOf column rows))) hw
    simp only [withRequest, hselect] at hnext
    obtain ⟨w', hon, hmemory⟩ := batches_repeat hs hd hk hp hr hlast hrows n
      ⟨⟨w.query.session, s.finalize (nextBatch q size column (lastOf column rows))⟩, w.memory ++ [rows]⟩ hw hv
    refine ⟨w', ?_, ?_⟩
    · rw [batches_next n hr rfl rfl hlast]
      exact (Run.on_bind_ok hnext).trans hon
    · rw [hmemory, List.replicate_succ, List.append_assoc, List.singleton_append]

/-- **A walk whose request names a key does not get beyond its first batch**, unless that is empty, shows nothing of the
column or is kept for no time. -/
theorem chunks_repeat (hs : s.hasListener .beforeSelect = false) (hd : q.cache = some d) (hk : d.key = some key)
    (hl : d.lifetime ≠ some 0) (hsize : 0 < size) (column : Option String)
    (hon : (Session.select (s.finalize (firstBatch q size (column.getD (s.primaryKeyFor q))))).on s = (.ok rows, t))
    (hr : rows ≠ []) (hlast : (lastOf (column.getD (s.primaryKeyFor q)) rows).isNull = false) (bound : Nat) :
    ∃ w, (chunks (keeping fun _ => true) size column bound).on ⟨⟨s, q⟩, []⟩ = (.ok none, w) ∧
      w.memory = List.replicate bound rows := by
  obtain ⟨⟨p, hp⟩, v, hv, hrows⟩ := live_of_select hs
    (q := s.finalize (firstBatch q size (column.getD (s.primaryKeyFor q)))) hd hk hl hon hr
  have hterms : t.terms = s.terms := by
    have hkept := Session.keeps_select (s.finalize (firstBatch q size (column.getD (s.primaryKeyFor q)))) s
    rwa [hon] at hkept
  have hfirst := queried_select_eq (s := s)
    (w := ⟨⟨s, firstBatch q size (column.getD (s.primaryKeyFor q))⟩, ([] : List (List Value))⟩) rfl
  simp only [hon] at hfirst
  obtain ⟨w, hbatches, hmemory⟩ := batches_repeat hs hd hk hp hr hlast hrows bound
    ⟨⟨t, s.finalize (firstBatch q size (column.getD (s.primaryKeyFor q)))⟩, []⟩ hterms hv
  refine ⟨w, ?_, by rw [hmemory, List.nil_append]⟩
  rw [chunks_on (Nat.pos_iff_ne_zero.1 hsize), Run.on_bind_ok hfirst]
  exact hbatches

end

end Walk

end DocQuery
