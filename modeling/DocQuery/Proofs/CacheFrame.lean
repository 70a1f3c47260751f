import DocQuery.Proofs.Cache
import DocQuery.Proofs.Run
import DocQuery.Session.Read
import DocQuery.Session.Write

/-!
# What stays clear of the cache

Finding an endpoint, asking the driver, keeping the statement and delivering rows neither look at the cache nor change
it (`CacheFree`): on a session with another cache they do the same and leave that cache as it is.  A write only removes
entries, and only if it succeeds (`removes_update`).
-/
namespace DocQuery

namespace Cache

/-- A cache has no entry that another one does not have as well. -/
structure Within (c' c : Cache) : Prop where
  wellFormed : c'.WellFormed
  held : ∀ key, c'.held? key = c.held? key ∨ c'.held? key = none

theorem Within.refl {c : Cache} (hc : c.WellFormed) : Within c c := ⟨hc, fun _ => .inl rfl⟩

theorem Within.trans {c c' c'' : Cache} (h : Within c'' c') (h' : Within c' c) : Within c'' c := by
  refine ⟨h.wellFormed, fun key => ?_⟩
  rcases h.held key with he | he
  · rcases h'.held key with he' | he'
    · exact .inl (he.trans he')
    · exact .inr (he.trans he')
  · exact .inr he

theorem within_delete {c : Cache} (hc : c.WellFormed) (key : String) : Within (c.delete key) c := by
  refine ⟨hc.delete, fun key' => ?_⟩
  rw [held?_delete hc]
  split
  · exact .inr rfl
  · exact .inl rfl

theorem within_purge {c : Cache} (hc : c.WellFormed) (now : Nat) (key : String) : Within (c.purge now key) c := by
  unfold purge
  split
  · split
    · exact Within.refl hc
    · exact within_delete hc key
  · exact Within.refl hc

theorem within_eraseAll : ∀ (ks : List String) {c : Cache}, c.WellFormed →
    Within { c with entries := ks.foldl Keyed.erase c.entries } c
  | [], _, hc => Within.refl hc
  | key :: ks, c, hc => by
    have hdelete := within_delete hc key
    exact (within_eraseAll ks hdelete.wellFormed).trans hdelete

theorem within_clearTag {c : Cache} (hc : c.WellFormed) (tag : String) : Within (c.clearTag tag) c := by
  unfold clearTag
  split
  · rename_i ks _
    have hin := within_eraseAll ks hc
    exact ⟨⟨hin.wellFormed.entries, Keyed.nodup_keys_erase hc.tags tag⟩, hin.held⟩
  · exact Within.refl hc

end Cache

namespace Session

variable {σ α β : Type}

def withCache (s : Session σ) (c : Cache) : Session σ := { s with cache := c }

/-- An operation neither looks at the cache nor changes it. -/
def CacheFree (m : Run (Session σ) α) : Prop :=
  ∀ s c, m.on (s.withCache c) = ((m.on s).1, (m.on s).2.withCache c)

theorem CacheFree.cache {m : Run (Session σ) α} (h : CacheFree m) (s : Session σ) : (m.on s).2.cache = s.cache := by
  have hon := h s s.cache
  rw [show s.withCache s.cache = s from rfl] at hon
  exact congrArg (fun out => out.2.cache) hon

theorem cacheFree_pure (a : α) : CacheFree (pure a : Run (Session σ) α) := fun _ _ => rfl

theorem cacheFree_lift (x : Except Fault α) : CacheFree (liftM x : Run (Session σ) α) := fun s c => by
  rw [Run.on_lift, Run.on_lift]

theorem CacheFree.bind {m : Run (Session σ) α} {k : α → Run (Session σ) β} (hm : CacheFree m)
    (hk : ∀ a, CacheFree (k a)) : CacheFree (m >>= k) := fun s c => by
  rw [Run.on_bind, Run.on_bind, hm s c]
  rcases m.on s with ⟨e | a, t⟩
  · rfl
  · exact hk a t c

theorem cacheFree_get {k : Session σ → Run (Session σ) β} (hk : ∀ s, CacheFree (k s))
    (hsame : ∀ s c, k (s.withCache c) = k s) : CacheFree (get >>= k) := fun s c => by
  rw [Run.on_bind_ok (Run.on_get _), Run.on_bind_ok (Run.on_get _), hsame]
  exact hk s s c

theorem cacheFree_pooled (m : Run (Pool σ) α) : CacheFree (pooled m) := fun _ _ => rfl

theorem cacheFree_modify {f : Session σ → Session σ} (h : ∀ s c, f (s.withCache c) = (f s).withCache c) :
    CacheFree (modify f : Run (Session σ) PUnit) := fun s c => by
  rw [Run.on_modify, Run.on_modify, h]

theorem cacheFree_trigger (hook : Hook) (q : Request) (outcome : Option Value) :
    CacheFree (trigger hook q outcome : Run (Session σ) (Option Value)) := fun _ _ => rfl

theorem cacheFree_endpoint (role : Role) : CacheFree (endpoint role : Run (Session σ) (Slot × Link)) :=
  CacheFree.bind (fun _ _ => rfl) fun _ => cacheFree_pooled _

theorem cacheFree_record (statement : String) : CacheFree (record statement : Run (Session σ) Unit) :=
  cacheFree_modify fun _ _ => rfl

theorem cacheFree_deliver (q : Request) (rows : List Value) :
    CacheFree (deliver q rows : Run (Session σ) (List Value)) := by
  refine cacheFree_get (fun s => ?_) fun _ _ => rfl
  refine CacheFree.bind (cacheFree_pooled _) fun rows => ?_
  exact CacheFree.bind (cacheFree_modify fun _ _ => rfl) fun _ => cacheFree_pure _

theorem cacheFree_openRows (q : Request) (p : FindPayload) :
    CacheFree (openRows q p : Run (Session σ) (List Value)) := by
  refine CacheFree.bind (cacheFree_endpoint _) fun sl => ?_
  refine cacheFree_get (fun s => ?_) fun _ _ => rfl
  refine CacheFree.bind (cacheFree_lift _) fun ns => ?_
  refine CacheFree.bind (cacheFree_pooled _) fun rows => ?_
  exact CacheFree.bind (cacheFree_record _) fun _ => cacheFree_pure _

theorem cacheFree_fetch (q : Request) (p : FindPayload) : CacheFree (fetch q p : Run (Session σ) (List Value)) :=
  CacheFree.bind (cacheFree_openRows q p) fun _ => cacheFree_deliver q _

theorem cacheFree_command (q : Request) (c : Command) (database : Option String) :
    CacheFree (command q c database : Run (Session σ) (List Value)) := by
  refine CacheFree.bind (cacheFree_endpoint _) fun sl => ?_
  refine cacheFree_get (fun s => ?_) fun _ _ => rfl
  refine CacheFree.bind (cacheFree_pooled _) fun rows => ?_
  exact CacheFree.bind (cacheFree_record _) fun _ => cacheFree_deliver q _

/-! ## Writing -/

theorem within_invalidate {c : Cache} (hc : c.WellFormed) (d : CacheDirective) (now : Nat) :
    (invalidate d now c).Within c := by
  have hpurge := fun k => Cache.within_purge hc now k
  unfold invalidate Cache.lookup
  cases d.key with
  | none =>
    cases d.tag with
    | none => exact Cache.Within.refl hc
    | some t => exact Cache.within_clearTag hc t
  | some k =>
    simp only
    split
    · exact (Cache.within_delete (hpurge k).wellFormed k).trans (hpurge k)
    · cases d.tag with
      | none => exact hpurge k
      | some t => exact (Cache.within_clearTag (hpurge k).wellFormed t).trans (hpurge k)

/-- An operation removes entries from the cache, and only if it succeeds. -/
def Removes (m : Run (Session σ) α) : Prop :=
  ∀ s, s.cache.WellFormed → (m.on s).2.cache.Within s.cache ∧
    ∀ e, (m.on s).1 = .error e → (m.on s).2.cache = s.cache

theorem CacheFree.bind_removes {m : Run (Session σ) α} {k : α → Run (Session σ) β} (hm : CacheFree m)
    (hk : ∀ a, Removes (k a)) : Removes (m >>= k) := fun s hs => by
  have hcache := hm.cache s
  rw [Run.on_bind]
  rcases hon : m.on s with ⟨e | a, t⟩
  · rw [hon] at hcache
    simp only at hcache ⊢
    rw [hcache]
    exact ⟨Cache.Within.refl hs, fun _ _ => rfl⟩
  · rw [hon] at hcache
    simp only at hcache ⊢
    rw [← hcache]
    exact hk a t (hcache ▸ hs)

theorem removes_get {k : Session σ → Run (Session σ) β} (hk : ∀ s, Removes (k s)) : Removes (get >>= k) :=
  fun s hs => by
    rw [Run.on_bind_ok (Run.on_get _)]
    exact hk s s hs

theorem Removes.bind {m : Run (Session σ) α} {k : α → Run (Session σ) β} (hm : Removes m)
    (hk : ∀ a, CacheFree (k a)) (hok : ∀ a s e, ((k a).on s).1 ≠ .error e) : Removes (m >>= k) := fun s hs => by
  have hfirst := hm s hs
  rw [Run.on_bind]
  rcases hon : m.on s with ⟨e | a, t⟩
  · rw [hon] at hfirst
    exact ⟨hfirst.1, fun _ _ => hfirst.2 e rfl⟩
  · rw [hon] at hfirst
    simp only
    rw [(hk a).cache t]
    exact ⟨hfirst.1, fun e he => absurd he (hok a t e)⟩

theorem removes_submit (q : Request) (b : BulkWrite) : Removes (submit q b : Run (Session σ) WriteResult) := by
  refine CacheFree.bind_removes (cacheFree_endpoint _) fun sl => removes_get fun s => ?_
  refine CacheFree.bind_removes (cacheFree_lift _) fun ns => CacheFree.bind_removes (cacheFree_pooled _) fun r => ?_
  refine CacheFree.bind_removes (cacheFree_record _) fun _ t ht => ?_
  rw [Run.on_bind_ok (Run.on_modify _ _), Run.on_pure]
  refine ⟨?_, fun e he => by cases he⟩
  cases q.cache with
  | none => exact Cache.Within.refl ht
  | some d => exact within_invalidate ht d t.now

/-- **An update removes entries from the cache, and leaves it alone if it fails.** -/
theorem removes_update (q : Request) : Removes (update q : Run (Session σ) Nat) := by
  have hrest : Removes (do
      let s ← get
      let b ← s.keyRule.update q
      let result ← submit q b
      if 0 < result.modified ∨ 0 < result.upserted then
        let _ ← trigger .afterUpdate q (some (.ofNat result.modified))
      return result.modified : Run (Session σ) Nat) := by
    refine removes_get fun s => CacheFree.bind_removes (cacheFree_lift _) fun b => ?_
    refine Removes.bind (removes_submit q b) (fun result => ?_) fun result t e he => ?_
    · split
      · exact CacheFree.bind (cacheFree_trigger _ _ _) fun _ => cacheFree_pure _
      · exact cacheFree_pure _
    · split at he
      · cases he
      · cases he
  unfold update
  split
  · exact fun s hs => ⟨Cache.Within.refl hs, fun _ _ => rfl⟩
  · exact hrest

end Session

end DocQuery
