import DocQuery.Proofs.CacheFrame
import DocQuery.Proofs.Frame
import DocQuery.Proofs.WalkFilter

/-!
# What a write takes out of the cache

The tag of an entry is the one that it was stored under; a cache does not keep it, so the calls on a cache are replayed
with the tags beside it (`Cache.replay`), and every tagged entry is found to be filed under its tag (`filed_replay`).  A
write takes out what its directive calls by key.  What it calls by tag it takes out just if the key is not there, or
nothing else is stored under the tag (`WriteCall.invalidates`).
-/
namespace DocQuery

namespace Cache

inductive Call where
  | lookup (key : String)
  | set (key : String) (v : Value) (tag : Option String) (lifetime : Option Nat)
  | delete (key : String)
  | clearTag (tag : String)
  | increment (key : String) (step : Int)

namespace Call

def on (c : Cache) (now : Nat) : Call → Cache
  | lookup key => (c.lookup now key).2
  | set key v tag lifetime => c.set now key v tag lifetime
  | delete key => c.delete key
  | clearTag tag => c.clearTag tag
  | increment key step => (c.increment now key step).2

/-- The tag that an entry is stored under after a call, by that from before. -/
def tagOf (key : String) (before : Option String) : Call → Option String
  | set key' _ tag _ => if key' = key then tag else before
  | _ => before

end Call

/-- A cache, and the tags that its entries were stored under. -/
structure Tagged where
  cache : Cache := {}
  tag? : String → Option String := fun _ => none

/-- A call at some time.  The tag of an entry goes with the entry. -/
def Tagged.after (t : Tagged) (call : Nat × Call) : Tagged where
  cache := call.2.on t.cache call.1
  tag? key := ((call.2.on t.cache call.1).held? key).bind fun _ => call.2.tagOf key (t.tag? key)

def replay (calls : List (Nat × Call)) : Tagged := calls.foldl Tagged.after {}

def keysOf (c : Cache) (tag : String) : List String := (Keyed.get? c.tags tag).getD []

/-- Every tagged entry is there, and its key among those of its tag. -/
structure Tagged.Filed (t : Tagged) : Prop where
  wellFormed : t.cache.WellFormed
  held : ∀ {key tag}, t.tag? key = some tag → t.cache.held? key ≠ none
  filed : ∀ {key tag}, t.tag? key = some tag → key ∈ t.cache.keysOf tag

section

variable {c : Cache} {now : Nat} {key tag : String}

theorem held?_eraseAll (key' : String) : ∀ (keys : List String) {c : Cache}, c.WellFormed →
    ({ c with entries := keys.foldl Keyed.erase c.entries } : Cache).held? key' =
      if key' ∈ keys then none else c.held? key'
  | [], _, _ => by simp
  | key :: keys, c, hc => by
    rw [List.foldl_cons, show ({ c with entries := keys.foldl Keyed.erase (Keyed.erase c.entries key) } : Cache) =
      { c.delete key with entries := keys.foldl Keyed.erase (c.delete key).entries } from rfl,
      held?_eraseAll key' keys hc.delete, held?_delete hc]
    by_cases hk : key = key'
    · simp [hk]
    · simp [hk, Ne.symm hk]

/-- **Clearing a tag takes out just the keys that were stored under it.** -/
theorem held?_clearTag (hc : c.WellFormed) (key' : String) :
    (c.clearTag tag).held? key' = if key' ∈ c.keysOf tag then none else c.held? key' := by
  unfold clearTag keysOf
  cases hk : Keyed.get? c.tags tag with
  | none => simp
  | some keys => exact held?_eraseAll key' keys hc

theorem keysOf_clearTag (hc : c.WellFormed) {tag' : String} (h : tag ≠ tag') :
    (c.clearTag tag).keysOf tag' = c.keysOf tag' := by
  unfold clearTag
  cases hk : Keyed.get? c.tags tag with
  | none => rfl
  | some keys =>
    unfold keysOf
    rw [Keyed.get?_erase hc.tags, if_neg h]

theorem keysOf_set (v : Value) (filed : Option String) (lifetime : Option Nat) :
    (c.set now key v filed lifetime).keysOf tag =
      if filed = some tag then key :: c.keysOf tag else c.keysOf tag := by
  cases filed with
  | none => rfl
  | some tag' =>
    unfold keysOf set
    rw [Keyed.get?_set]
    by_cases h : tag' = tag
    · subst h
      simp
    · simp [h]

theorem tags_purge : (c.purge now key).tags = c.tags := by
  unfold purge
  split
  · split <;> rfl
  · rfl

end

section

variable {t : Tagged} {now : Nat}

theorem Tagged.Filed.keep (h : t.Filed) {call : Call} (htag : ∀ key before, call.tagOf key before = before)
    (hwf : (call.on t.cache now).WellFormed) (hkeys : ∀ {key tag}, (call.on t.cache now).held? key ≠ none →
      key ∈ t.cache.keysOf tag → key ∈ (call.on t.cache now).keysOf tag) : (t.after (now, call)).Filed := by
  have hafter : ∀ {key tag}, (t.after (now, call)).tag? key = some tag →
      (call.on t.cache now).held? key ≠ none ∧ t.tag? key = some tag := by
    intro key tag ht
    obtain ⟨e, he, ht⟩ := Option.bind_eq_some_iff.1 ht
    rw [htag] at ht
    exact ⟨fun hnone => Option.some_ne_none e (he.symm.trans hnone), ht⟩
  exact ⟨hwf, fun ht => (hafter ht).1, fun ht => hkeys (hafter ht).1 (h.filed (hafter ht).2)⟩

/-- **A call leaves every tagged entry filed under its tag.** -/
theorem Tagged.Filed.after (h : t.Filed) : ∀ call : Call, (t.after (now, call)).Filed
  | .lookup key =>
    h.keep (fun _ _ => rfl) (within_purge h.wellFormed now key).wellFormed fun _ hk => by
      rw [keysOf, show ((Call.lookup key).on t.cache now).tags = t.cache.tags from tags_purge]
      exact hk
  | .delete key => h.keep (fun _ _ => rfl) h.wellFormed.delete fun _ hk => hk
  | .increment key step => h.keep (fun _ _ => rfl) (h.wellFormed.increment step) fun _ hk => hk
  | .clearTag tag => by
    refine h.keep (fun _ _ => rfl) (within_clearTag h.wellFormed tag).wellFormed fun {key tag'} hheld hk => ?_
    rw [Call.on] at hheld ⊢
    by_cases htag : tag = tag'
    · subst htag
      rw [held?_clearTag h.wellFormed, if_pos hk] at hheld
      exact absurd rfl hheld
    · rw [keysOf_clearTag h.wellFormed htag]
      exact hk
  | .set key v filed lifetime => by
    have hafter : ∀ {key' tag}, (t.after (now, .set key v filed lifetime)).tag? key' = some tag →
        (t.cache.set now key v filed lifetime).held? key' ≠ none ∧
          (if key = key' then filed else t.tag? key') = some tag := by
      intro key' tag ht
      obtain ⟨e, he, ht⟩ := Option.bind_eq_some_iff.1 ht
      exact ⟨fun hnone => Option.some_ne_none e (he.symm.trans hnone), ht⟩
    refine ⟨h.wellFormed.set v filed lifetime, fun ht => (hafter ht).1, fun {key' tag} ht => ?_⟩
    have htag := (hafter ht).2
    rw [show (t.after (now, .set key v filed lifetime)).cache = t.cache.set now key v filed lifetime from rfl,
      keysOf_set]
    by_cases hk : key = key'
    · rw [if_pos hk] at htag
      rw [if_pos htag, hk]
      exact List.mem_cons_self
    · rw [if_neg hk] at htag
      split
      · exact List.mem_cons_of_mem _ (h.filed htag)
      · exact h.filed htag

/-- **Whatever was called, every tagged entry is filed under its tag.** -/
theorem filed_replay (calls : List (Nat × Call)) : (replay calls).Filed := by
  have hfold : ∀ (calls : List (Nat × Call)) {t : Tagged}, t.Filed → (calls.foldl Tagged.after t).Filed := by
    intro calls
    induction calls with
    | nil => exact id
    | cons call calls ih => exact fun h => ih (h.after call.2)
  exact hfold calls ⟨wellFormed_empty, nofun, nofun⟩

end

end Cache

namespace Session

open Run (Keeps)

/-! ## Invalidating -/

section

variable {c : Cache} {d : CacheDirective} {now : Nat} {key : String}

theorem invalidate_of_live (hk : d.key = some key) {v : Value} (hv : c.get? now key = some v) :
    invalidate d now c = (c.purge now key).delete key := by
  unfold invalidate Cache.lookup
  rw [hk]
  simp only [hv, Option.isSome_some, if_true]

theorem invalidate_of_miss (hk : d.key = some key) (hv : c.get? now key = none) :
    invalidate d now c = match d.tag with
      | some tag => (c.purge now key).clearTag tag
      | none => c.purge now key := by
  unfold invalidate Cache.lookup
  rw [hk]
  cases d.tag <;> simp only [hv, Option.isSome_none, Bool.false_eq_true, if_false]

/-- **The key of a directive is out of the cache afterwards.** -/
theorem held?_invalidate_key (hc : c.WellFormed) (hk : d.key = some key) :
    (invalidate d now c).held? key = none := by
  have hwf := (Cache.within_purge hc now key).wellFormed
  cases hv : c.get? now key with
  | some v => rw [invalidate_of_live hk hv, Cache.held?_delete hwf, if_pos rfl]
  | none =>
    have hpurge : (c.purge now key).held? key = none := by rw [Cache.held?_purge hc, if_pos ⟨rfl, hv⟩]
    rw [invalidate_of_miss hk hv]
    cases d.tag with
    | none => exact hpurge
    | some tag => exact ((Cache.within_clearTag hwf tag).held key).elim (fun h => h.trans hpurge) id

/-- **Nothing else goes if the key is there.** -/
theorem held?_invalidate_live (hc : c.WellFormed) (hk : d.key = some key) {v : Value} (hv : c.get? now key = some v)
    {key' : String} (hne : key ≠ key') : (invalidate d now c).held? key' = c.held? key' := by
  rw [invalidate_of_live hk hv, Cache.held?_delete (Cache.within_purge hc now key).wellFormed, if_neg hne,
    Cache.held?_purge hc, if_neg fun h => hne h.1]

/-- **All keys of the tag go if the key is not there.** -/
theorem held?_invalidate_tag (hc : c.WellFormed) {tag : String} (ht : d.tag = some tag)
    (hmiss : ∀ key, d.key = some key → c.get? now key = none) {key' : String} (hk' : key' ∈ c.keysOf tag) :
    (invalidate d now c).held? key' = none := by
  cases hk : d.key with
  | none =>
    have hinvalidate : invalidate d now c = c.clearTag tag := by
      unfold invalidate
      rw [hk, ht]
    rw [hinvalidate, Cache.held?_clearTag hc, if_pos hk']
  | some key =>
    have hkeys : (c.purge now key).keysOf tag = c.keysOf tag := by rw [Cache.keysOf, Cache.tags_purge, Cache.keysOf]
    rw [invalidate_of_miss hk (hmiss key hk), ht]
    simp only
    rw [Cache.held?_clearTag (Cache.within_purge hc now key).wellFormed, hkeys, if_pos hk']

/-- **What a directive takes out of a cache**: what it calls by key, and what is stored under its tag, unless the key is
there and something else is stored under the tag. -/
theorem invalidate_takes {t : Cache.Tagged} (h : t.Filed) :
    (∀ key, d.key = some key → (invalidate d now t.cache).held? key = none) ∧
    ∀ tag, d.tag = some tag →
      ((∀ key, t.tag? key = some tag → (invalidate d now t.cache).held? key = none) ↔
        ¬ ∃ key v other, d.key = some key ∧ t.cache.get? now key = some v ∧ other ≠ key ∧ t.tag? other = some tag) := by
  refine ⟨fun key hk => held?_invalidate_key h.wellFormed hk, fun tag htag => ⟨?_, fun hno key' hk' => ?_⟩⟩
  · rintro hall ⟨key, v, other, hk, hv, hne, hother⟩
    have hstays := held?_invalidate_live h.wellFormed hk hv hne.symm
    exact h.held hother (hstays.symm.trans (hall other hother))
  · by_cases hlive : ∃ key v, d.key = some key ∧ t.cache.get? now key = some v
    · obtain ⟨key, v, hk, hv⟩ := hlive
      by_cases hne : key' = key
      · exact hne ▸ held?_invalidate_key h.wellFormed hk
      · exact absurd ⟨key, v, key', hk, hv, hne, hk'⟩ hno
    · refine held?_invalidate_tag h.wellFormed htag (fun key hk => ?_) (h.filed hk')
      exact Option.eq_none_iff_forall_ne_some.2 fun v hv => hlive ⟨key, v, hk, hv⟩

end

/-! ## Writing -/

variable {σ α β : Type} {d : CacheDirective}

/-- An operation that succeeds leaves the cache invalidated by a directive. -/
def Invalidates (d : CacheDirective) (m : Run (Session σ) α) : Prop :=
  ∀ s a t, m.on s = (.ok a, t) → t.cache = invalidate d s.now s.cache

theorem Invalidates.behind {m : Run (Session σ) α} {k : α → Run (Session σ) β} (hm : Keeps termsAndCache m)
    (hk : ∀ a, Invalidates d (k a)) : Invalidates d (m >>= k) := by
  intro s b u h
  obtain ⟨a, t, hon, hrest⟩ := Run.bind_eq_ok.1 h
  have hkept : t.termsAndCache = s.termsAndCache := by
    rw [← hm s, hon]
  rw [hk a t b u hrest, now_of_terms (congrArg Prod.fst hkept), show t.cache = s.cache from congrArg Prod.snd hkept]

theorem Invalidates.before {m : Run (Session σ) α} {k : α → Run (Session σ) β} (hm : Invalidates d m)
    (hk : ∀ a, Keeps termsAndCache (k a)) : Invalidates d (m >>= k) := by
  intro s b u h
  obtain ⟨a, t, hon, hrest⟩ := Run.bind_eq_ok.1 h
  have hkept : u.termsAndCache = t.termsAndCache := by
    rw [← hk a t, hrest]
  exact (congrArg Prod.snd hkept).trans (hm s a t hon)

theorem invalidates_throw (e : Fault) : Invalidates d (throw e : Run (Session σ) α) := fun s a t h => by
  rw [Run.on_throw] at h
  cases h

theorem invalidates_submit {q : Request} (hq : q.cache = some d) (b : BulkWrite) :
    Invalidates d (submit q b : Run (Session σ) WriteResult) := by
  refine .behind (keeps_endpoint aside_termsAndCache _) fun _ => .behind Run.keeps_get fun s => ?_
  refine .behind (Run.keeps_lift _) fun _ => .behind (keeps_drive aside_termsAndCache _) fun r => ?_
  refine .behind (keeps_record _) fun _ => ?_
  intro s a t h
  rw [Run.on_bind_ok (Run.on_modify _ _), Run.on_pure, hq] at h
  cases h
  rfl

theorem invalidates_insert {q : Request} (hq : q.cache = some d) :
    Invalidates d (insert q : Run (Session σ) (Nat × Option Value × Request)) := by
  unfold insert
  split
  · exact invalidates_throw _
  · refine .behind (keeps_supplied aside_termsAndCache _) fun _ => .before (invalidates_submit hq _) fun result => ?_
    split
    · exact Run.keeps_pure _
    · exact Run.keeps_get.bind fun _ => (keeps_trigger aside_termsAndCache _ _ _).bind fun _ => Run.keeps_pure _

theorem invalidates_insertAll {q : Request} (hq : q.cache = some d) {rows : List Fields} (hrows : rows ≠ []) :
    Invalidates d (insertAll q rows : Run (Session σ) Nat) := by
  unfold insertAll
  rw [if_neg (by simpa using hrows)]
  refine .behind (keeps_supplied aside_termsAndCache _) fun _ => ?_
  exact .before (invalidates_submit hq _) fun _ => Run.keeps_pure _

theorem invalidates_update {q : Request} (hq : q.cache = some d) :
    Invalidates d (update q : Run (Session σ) Nat) := by
  unfold update
  split
  · exact invalidates_throw _
  · refine .behind Run.keeps_get fun _ => .behind (Run.keeps_lift _) fun _ => ?_
    refine .before (invalidates_submit hq _) fun result => ?_
    split
    · exact (keeps_trigger aside_termsAndCache _ _ _).bind fun _ => Run.keeps_pure _
    · exact Run.keeps_pure _

theorem invalidates_delete {q : Request} (hq : q.cache = some d) :
    Invalidates d (delete q : Run (Session σ) Nat) := by
  refine .behind Run.keeps_get fun _ => .behind (Run.keeps_lift _) fun filter => ?_
  split
  · exact invalidates_throw _
  · refine .behind (Run.keeps_lift _) fun _ => .before (invalidates_submit hq _) fun result => ?_
    split
    · exact (keeps_trigger aside_termsAndCache _ _ _).bind fun _ => Run.keeps_pure _
    · exact Run.keeps_pure _

end Session

inductive WriteCall where
  | insert (fs : Fields)
  | insertAll (rows : List Fields)
  | update (fs : Fields)
  | delete (data : Option Value)

namespace WriteCall

variable {σ : Type} {d : CacheDirective} {q q' : Query σ}

def run : WriteCall → Run (Query σ) Unit
  | insert fs => do let _ ← Query.insert fs
  | insertAll rows => do let _ ← Query.insertAll rows
  | update fs => do let _ ← Query.update fs
  | delete data => do let _ ← Query.delete data

/-- Whether there is something to write: all but an insertion of no rows. -/
def Writes : WriteCall → Prop
  | insertAll rows => rows ≠ []
  | _ => True

theorem cache_finalized {α : Type} {op : Request → Run (Session σ) α} {a : α} (hq : q.request.cache = some d)
    (hop : ∀ r : Request, r.cache = some d → Session.Invalidates d (op r))
    (h : (Query.finalized op).on q = (.ok a, q')) :
    q'.session.cache = Session.invalidate d q.session.now q.session.cache := by
  rw [Query.finalized_on, Prod.mk.injEq] at h
  obtain ⟨ha, rfl⟩ := h
  exact hop (q.session.finalize q.request) hq q.session a _ (Prod.ext ha rfl)

/-- **A write leaves the cache invalidated by the directive of its request.** -/
theorem cache_run (call : WriteCall) (hw : call.Writes) (hq : q.request.cache = some d)
    (h : call.run.on q = (.ok (), q')) :
    q'.session.cache = Session.invalidate d q.session.now q.session.cache := by
  cases call with
  | insert fs =>
    obtain ⟨_, _, hinsert, hpure⟩ := Run.bind_eq_ok.1 h
    cases hpure
    obtain ⟨_, _, hmerge, hrun⟩ := Run.bind_eq_ok.1 hinsert
    cases hmerge
    obtain ⟨⟨_, _, r⟩, w, hon, hrest⟩ := Run.bind_eq_ok.1 hrun
    have hkept : q'.session = w.session := (congrArg (fun out => out.2.session) hrest).symm
    rw [hkept]
    exact cache_finalized (q := ⟨q.session, q.request.mergeData fs⟩) hq (fun _ hr => Session.invalidates_insert hr) hon
  | insertAll rows =>
    obtain ⟨_, _, hon, hpure⟩ := Run.bind_eq_ok.1 h
    cases hpure
    exact cache_finalized hq (fun _ hr => Session.invalidates_insertAll hr hw) hon
  | update fs =>
    obtain ⟨_, _, hon, hpure⟩ := Run.bind_eq_ok.1 h
    cases hpure
    obtain ⟨_, _, hmerge, hon⟩ := Run.bind_eq_ok.1 hon
    cases hmerge
    exact cache_finalized (q := ⟨q.session, q.request.mergeData fs⟩) hq (fun _ hr => Session.invalidates_update hr) hon
  | delete data =>
    obtain ⟨n, _, hon, hpure⟩ := Run.bind_eq_ok.1 h
    cases hpure
    obtain ⟨q₀, hsession, hcache, hon⟩ : ∃ q₀ : Query σ, q₀.session = q.session ∧ q₀.request.cache = q.request.cache ∧
        (Query.finalized Session.delete).on q₀ = (.ok n, q') := by
      rw [Query.delete, Run.on_bind_ok (Run.on_get q)] at hon
      split at hon
      · exact ⟨⟨q.session, { q.request with force := some true }⟩, rfl, rfl,
          (Run.on_bind_ok (Run.on_modify _ _)).symm.trans hon⟩
      · exact ⟨q, rfl, rfl, hon⟩
      · exact ⟨q, rfl, rfl, hon⟩
      · rename_i v _ _
        exact ⟨⟨q.session, q.byKey v⟩, rfl, rfl, (Run.on_bind_ok (Run.on_modify _ _)).symm.trans hon⟩
    have hout := cache_finalized (hcache.trans hq) (fun _ hr => Session.invalidates_delete hr) hon
    rwa [hsession] at hout

theorem cache_run_nothing (call : WriteCall) (hw : ¬ call.Writes) (q : Query σ) :
    (call.run.on q).2.session.cache = q.session.cache := by
  cases call with
  | insertAll rows =>
    obtain rfl : rows = [] := not_not.1 hw
    rfl
  | _ => exact absurd trivial hw

/-- **What a write takes out of the cache.**  After a write that succeeds nothing is held under the key that its
directive calls, and nothing that was stored under the tag it calls, unless the key was there and something else was
stored under the tag: that stays. -/
theorem invalidates (calls : List (Nat × Cache.Call)) (hcache : q.session.cache = (Cache.replay calls).cache)
    (hq : q.request.cache = some d) (call : WriteCall) (h : call.run.on q = (.ok (), q')) :
    (¬ call.Writes → q'.session.cache = q.session.cache) ∧
    (call.Writes →
      (∀ key, d.key = some key → q'.session.cache.held? key = none) ∧
      ∀ tag, d.tag = some tag →
        ((∀ key, (Cache.replay calls).tag? key = some tag → q'.session.cache.held? key = none) ↔
          ¬ ∃ key v other, d.key = some key ∧ q.session.cache.get? q.session.now key = some v ∧ other ≠ key ∧
            (Cache.replay calls).tag? other = some tag)) := by
  refine ⟨fun hw => ?_, fun hw => ?_⟩
  · have hnothing := cache_run_nothing call hw q
    rwa [h] at hnothing
  · rw [cache_run call hw hq h, hcache]
    exact Session.invalidate_takes (Cache.filed_replay calls)

def twoStored : List (Nat × Cache.Call) :=
  [(0, .set "a" (.int 1) (some "t") none), (0, .set "k" (.int 2) none none)]

def twoStoredSession : Session Memory := { Walk.freshSession with cache := (Cache.replay twoStored).cache }

theorem invalidates_tag : ∃ q' : Query Memory, (insert [("name", .str "b")]).run.on
      ⟨twoStoredSession, { table := some "t", cache := some { tag := some "t" } }⟩ = (.ok (), q') ∧
    ∀ key, (Cache.replay twoStored).tag? key = some "t" → q'.session.cache.held? key = none := by
  obtain ⟨q', hon⟩ : ∃ q' : Query Memory, (insert [("name", .str "b")]).run.on
      ⟨twoStoredSession, { table := some "t", cache := some { tag := some "t" } }⟩ = (.ok (), q') := ⟨_, rfl⟩
  have h := invalidates twoStored (d := { tag := some "t" }) rfl rfl (.insert [("name", .str "b")]) hon
  refine ⟨q', hon, ((h.2 trivial).2 "t" rfl).2 ?_⟩
  rintro ⟨key, -, -, hkey, -⟩
  cases hkey

/-- **A write whose key is in the cache leaves what is stored under its tag.** -/
theorem live_key_keeps_tag : ∃ q' : Query Memory, (insert [("name", .str "b")]).run.on
      ⟨twoStoredSession, { table := some "t", cache := some { key := some "k", tag := some "t" } }⟩ = (.ok (), q') ∧
    (Cache.replay twoStored).tag? "a" = some "t" ∧ q'.session.cache.held? "a" = some ⟨.int 1, none⟩ :=
  ⟨_, rfl, rfl, rfl⟩

end WriteCall

end DocQuery
