import DocQuery.Proofs.Counter
import DocQuery.Proofs.Histories
import DocQuery.Proofs.Invalidation
import Mathlib.Data.List.Induction

/-!
# The cache by the history of its calls

What a cache holds is told by the calls on it.  A tag has the keys that were stored under it since it was last cleared
(`Cache.mem_keysOf_replay`).  A key has the value that was stored there last, unless a later call took it out, by the
key or by a tag that had it then (`Cache.held?_replay`).  Removing a key or storing it anew leaves it under its tags.
-/
namespace DocQuery.Cache

open Counter (Fits signed?_int signed?_eq_some)

def Call.key? : Call → Option String
  | lookup key | set key _ _ _ | delete key | increment key _ => some key
  | clearTag _ => none

/-- What a call stores under its key: the value that it is given, or the sum that it answers. -/
def Call.stored? (c : Cache) (now : Nat) : Call → Option Value
  | set _ v _ _ => some v
  | increment key step => some (.int (c.increment now key step).1)
  | _ => none

def Call.Lasting : Call → Prop
  | set _ _ _ lifetime => lifetime = none
  | _ => True

def Call.StoresAt (key : String) : Call → Prop
  | set key' _ _ _ | increment key' _ => key' = key
  | _ => False

/-- A key was stored under a tag, and the tag has not been cleared since. -/
def FiledUnder (tag key : String) : List (Nat × Call) → Prop :=
  Since (fun _ call => ∃ v lifetime, call.2 = .set key v (some tag) lifetime) fun _ call => call.2 = .clearTag tag

/-- A call behind some others takes out a key: by itself, or with all that are filed under a tag. -/
def Call.TakesOut (key : String) (earlier : List (Nat × Call)) : Call → Prop
  | delete key' => key' = key
  | clearTag tag => FiledUnder tag key earlier
  | _ => False

/-- A value was stored under a key, and no call has stored anything there or taken out the key since. -/
def LastStored (key : String) (v : Value) : List (Nat × Call) → Prop :=
  Since (fun earlier call => call.2.StoresAt key ∧ call.2.stored? (replay earlier).cache call.1 = some v)
    fun earlier call => call.2.StoresAt key ∨ call.2.TakesOut key earlier

def Lasting (c : Cache) : Prop := ∀ key e, c.held? key = some e → e.expiry = none

section

variable {c : Cache} {now : Nat} {key tag : String} {call : Call}

theorem Lasting.get? (h : c.Lasting) : c.get? now key = (c.held? key).map CacheEntry.value := by
  cases he : c.held? key with
  | none => exact get?_of_held?_none he
  | some e => exact get?_of_held? he (h key e he)

theorem Lasting.lookup (h : c.Lasting) : (Call.lookup key).on c now = c := purge_of_lasting (h key)

theorem Lasting.within {c' : Cache} (h : c.Lasting) (hin : Within c' c) : c'.Lasting := by
  intro key e he
  rcases hin.held key with hk | hk
  · exact h key e (hk.symm.trans he)
  · cases hk.symm.trans he

theorem Lasting.on (hc : c.WellFormed) (h : c.Lasting) (hcall : call.Lasting) : (call.on c now).Lasting := by
  cases call with
  | lookup key => exact h.within (within_purge hc now key)
  | delete key => exact h.within (within_delete hc key)
  | clearTag tag => exact h.within (within_clearTag hc tag)
  | set key v tag lifetime =>
    intro key' e he
    rw [Call.on, held?_set, show lifetime = none from hcall] at he
    split at he
    · cases he
      rfl
    · exact h key' e he
  | increment key step =>
    intro key' e he
    rw [Call.on, held?_increment] at he
    split at he
    · cases he
      rfl
    · exact h key' e he

theorem keysOf_clearTag_self (hc : c.WellFormed) (tag : String) : (c.clearTag tag).keysOf tag = [] := by
  unfold clearTag keysOf
  cases hk : Keyed.get? c.tags tag with
  | none => simp [hk]
  | some keys => simp [Keyed.get?_erase hc.tags]

/-- **A call about a key changes the value of no other key.** -/
theorem get?_on_of_ne (hc : c.WellFormed) {key' : String} (hk : call.key? = some key) (hne : key' ≠ key) (now' : Nat) :
    (call.on c now).get? now' key' = c.get? now' key' := by
  have hheld : (call.on c now).held? key' = c.held? key' := by
    cases call with
    | lookup k =>
      obtain rfl := Option.some.inj hk
      rw [Call.on, Cache.lookup, held?_purge hc, if_neg fun h => hne h.1.symm]
    | set k v tag lifetime =>
      obtain rfl := Option.some.inj hk
      rw [Call.on, held?_set, if_neg hne.symm]
    | increment k step =>
      obtain rfl := Option.some.inj hk
      rw [Call.on, held?_increment, if_neg hne.symm]
    | delete k =>
      obtain rfl := Option.some.inj hk
      rw [Call.on, held?_delete hc, if_neg hne.symm]
    | clearTag tag => cases hk
  exact congrArg (fun e => e.bind fun e => if e.isLive now' then some e.value else none) hheld

theorem number_eq (c : Cache) (now : Nat) (key : String) :
    (∀ n, Fits n → c.get? now key = some (.int n) → c.number now key = n) ∧
      ((∀ n, Fits n → c.get? now key ≠ some (.int n)) → c.number now key = 0) := by
  constructor
  · intro n hn hv
    rw [number, hv, Option.bind_some, signed?_int hn, Option.getD_some]
  · intro hno
    have hnone : (c.get? now key).bind Value.signed? = none := by
      refine Option.eq_none_iff_forall_ne_some.2 fun n hn => ?_
      obtain ⟨v, hv, hn⟩ := Option.bind_eq_some_iff.1 hn
      obtain ⟨rfl, hfits⟩ := signed?_eq_some.1 hn
      exact hno n hfits hv
    rw [number, hnone, Option.getD_none]

end

/-! ## Runs -/

section

variable {key : String} {calls : List (Nat × Call)}

theorem cache_append_singleton (calls : List (Nat × Call)) (call : Nat × Call) :
    (replay (calls ++ [call])).cache = call.2.on (replay calls).cache call.1 := by
  rw [replay, List.foldl_append]
  rfl

theorem lasting_replay (h : ∀ call ∈ calls, call.2.Lasting) : (replay calls).cache.Lasting := by
  induction calls using List.reverseRecOn with
  | nil =>
    intro key e he
    cases he
  | append_singleton calls call ih =>
    rw [cache_append_singleton]
    exact (ih fun c hc => h c (List.mem_append_left _ hc)).on (filed_replay calls).wellFormed (h call (by simp))

/-- **A tag has the keys that were stored under it since it was last cleared.** -/
theorem mem_keysOf_replay {tag : String} : key ∈ (replay calls).cache.keysOf tag ↔ FiledUnder tag key calls := by
  induction calls using List.reverseRecOn with
  | nil => exact iff_of_false List.not_mem_nil not_since_nil
  | append_singleton calls call ih =>
    obtain ⟨now, call⟩ := call
    have hc := (filed_replay calls).wellFormed
    rw [cache_append_singleton, FiledUnder, since_append_singleton, ← FiledUnder, ← ih]
    cases call with
    | lookup key' =>
      have htags : ((Call.lookup key').on (replay calls).cache now).tags = (replay calls).cache.tags := tags_purge
      simp [keysOf, htags]
    | set key' v tag' lifetime =>
      rw [Call.on, keysOf_set]
      by_cases htag : tag' = some tag
      · simp [htag, eq_comm]
      · simp [htag]
    | increment key' step => simp [Call.on, Cache.increment, keysOf]
    | delete key' => simp [Call.on, Cache.delete, keysOf]
    | clearTag tag' =>
      by_cases htag : tag' = tag
      · simp [htag, Call.on, keysOf_clearTag_self hc]
      · rw [Call.on, keysOf_clearTag hc htag]
        simp [htag]

/-- **A key has the value that was stored there last, unless a later call took it out.** -/
theorem held?_replay (h : ∀ call ∈ calls, call.2.Lasting) {v : Value} :
    ((replay calls).cache.held? key).map CacheEntry.value = some v ↔ LastStored key v calls := by
  induction calls using List.reverseRecOn with
  | nil => exact iff_of_false nofun not_since_nil
  | append_singleton calls call ih =>
    obtain ⟨now, call⟩ := call
    have hc := (filed_replay calls).wellFormed
    have hbefore : ∀ call ∈ calls, call.2.Lasting := fun c hc => h c (List.mem_append_left _ hc)
    rw [cache_append_singleton, LastStored, since_append_singleton, ← LastStored, ← ih hbefore]
    cases call with
    | lookup key' =>
      rw [(lasting_replay hbefore).lookup]
      simp [Call.StoresAt, Call.TakesOut]
    | set key' w tag lifetime =>
      rw [Call.on, held?_set]
      by_cases hk : key' = key
      · simp [hk, Call.StoresAt, Call.stored?]
      · simp [hk, Call.StoresAt, Call.TakesOut]
    | increment key' step =>
      rw [Call.on, held?_increment]
      by_cases hk : key' = key
      · simp [hk, Call.StoresAt, Call.stored?, Cache.increment]
      · simp [hk, Call.StoresAt, Call.TakesOut]
    | delete key' =>
      rw [Call.on, held?_delete hc]
      by_cases hk : key' = key
      · simp [hk, Call.StoresAt, Call.TakesOut]
      · simp [hk, Call.StoresAt, Call.TakesOut]
    | clearTag tag =>
      rw [Call.on, held?_clearTag hc]
      by_cases hk : key ∈ (replay calls).cache.keysOf tag
      · simp [hk, Call.StoresAt, Call.TakesOut, ← mem_keysOf_replay]
      · simp [hk, Call.StoresAt, Call.TakesOut, ← mem_keysOf_replay]

/-- **A cache on which everything is stored for good is a map with tags.**  Asking for a key gives what was stored there
last, unless a later call took it out, by the key or by a tag that the key was filed under.  Incrementing adds to the
whole number that is there, or to zero, in a signed word of 64 bits.  A call about a key changes the value of no other
key. -/
theorem map_with_tags (h : ∀ call ∈ calls, call.2.Lasting) :
    (∀ key now v, ((replay calls).cache.lookup now key).1 = some v ↔ LastStored key v calls) ∧
    (∀ key now step,
      (∀ n, Fits n → LastStored key (.int n) calls →
        ((replay calls).cache.increment now key step).1 = Value.wrapped (n + step) ∧
          (Fits (n + step) → ((replay calls).cache.increment now key step).1 = n + step)) ∧
      ((∀ n, Fits n → ¬ LastStored key (.int n) calls) →
        ((replay calls).cache.increment now key step).1 = Value.wrapped step ∧
          (Fits step → ((replay calls).cache.increment now key step).1 = step))) ∧
    ∀ (call : Call) (key : String), call.key? = some key → ∀ now now' key', key' ≠ key →
      ((call.on (replay calls).cache now).lookup now' key').1 = ((replay calls).cache.lookup now' key').1 := by
  have hget : ∀ key now v, (replay calls).cache.get? now key = some v ↔ LastStored key v calls := by
    intro key now v
    rw [(lasting_replay h).get?, held?_replay h]
  refine ⟨hget, fun key now step => ?_, fun call key hk now now' key' hne => ?_⟩
  · obtain ⟨hthere, hnone⟩ := number_eq (replay calls).cache now key
    simp only [ne_eq, hget] at hthere hnone
    have hsum : ((replay calls).cache.increment now key step).1 =
        Value.wrapped ((replay calls).cache.number now key + step) := rfl
    refine ⟨fun n hn hlast => ?_, fun hno => ?_⟩
    · rw [hsum, hthere n hn hlast]
      exact ⟨rfl, Value.wrapped_of_fits⟩
    · rw [hsum, hnone hno, Int.zero_add]
      exact ⟨rfl, Value.wrapped_of_fits⟩
  · exact get?_on_of_ne (filed_replay calls).wellFormed hk hne now'

end

def restored : List (Nat × Call) :=
  [(0, .set "a" (.int 1) (some "t") none), (1, .delete "a"), (2, .set "a" (.str "x") none none),
    (3, .set "b" (.int 2) (some "u") none), (2, .increment "b" 3), (4, .lookup "a"), (5, .clearTag "t")]

theorem map_with_tags_restored : (∀ call ∈ restored, call.2.Lasting) ∧ (∀ v, ¬ LastStored "a" v restored) ∧
    LastStored "b" (.int 5) restored ∧ ((replay restored).cache.increment 9 "b" 2).1 = 7 := by
  have hlasting : ∀ call ∈ restored, call.2.Lasting := by simp [restored, Call.Lasting]
  obtain ⟨hget, hincrement, -⟩ := map_with_tags hlasting
  have hb : LastStored "b" (.int 5) restored := (hget "b" 9 (.int 5)).1 rfl
  refine ⟨hlasting, fun v hv => ?_, hb, ((hincrement "b" 9 2).1 5 ⟨by decide, by decide⟩ hb).2 ⟨by decide, by decide⟩⟩
  have hgone : ((replay restored).cache.lookup 9 "a").1 = none := rfl
  rw [(hget "a" 9 v).2 hv] at hgone
  cases hgone

end DocQuery.Cache
