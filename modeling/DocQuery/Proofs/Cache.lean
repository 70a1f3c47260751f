import DocQuery.Cache
import DocQuery.Proofs.Keyed

/-!
# The cache as a map

`Cache.held?` is what the cache holds under a key.  Every operation changes it under the keys it names and nowhere
else, as long as the cache holds each key once (`Cache.WellFormed`), and asking for a key whose entry has no lifetime
changes nothing at all (`purge_of_lasting`).
-/
namespace DocQuery.Cache

def held? (c : Cache) (key : String) : Option CacheEntry := Keyed.get? c.entries key

/-- A cache that holds each key once, and each tag. -/
structure WellFormed (c : Cache) : Prop where
  entries : (Keyed.keys c.entries).Nodup
  tags : (Keyed.keys c.tags).Nodup

theorem wellFormed_empty : WellFormed {} := ⟨List.nodup_nil, List.nodup_nil⟩

section Entries

variable {c : Cache} {now : Nat} {key : String}

theorem get?_of_held? {e : CacheEntry} (h : c.held? key = some e) (hl : e.expiry = none) :
    c.get? now key = some e.value := by
  have hlive : e.isLive now = true := by rw [CacheEntry.isLive, hl]
  unfold get?
  rw [show Keyed.get? c.entries key = some e from h, Option.bind_some, if_pos hlive]

theorem get?_of_held?_none (h : c.held? key = none) : c.get? now key = none := by
  unfold get?
  rw [show Keyed.get? c.entries key = none from h, Option.bind_none]

/-- **Asking for a key purges nothing if its entry has no lifetime.** -/
theorem purge_of_lasting (h : ∀ e, c.held? key = some e → e.expiry = none) : c.purge now key = c := by
  unfold purge
  cases he : Keyed.get? c.entries key with
  | none => rfl
  | some e =>
    have hlive : e.isLive now = true := by rw [CacheEntry.isLive, h e he]
    simp only [hlive, if_true]

theorem held?_set (v : Value) (tag : Option String) (lifetime : Option Nat) (key' : String) :
    (c.set now key v tag lifetime).held? key' =
      if key = key' then some ⟨v, lifetime.map (now + ·)⟩ else c.held? key' :=
  Keyed.get?_set c.entries key key' _

theorem held?_increment (step : Int) (key' : String) :
    (c.increment now key step).2.held? key' =
      if key = key' then some ⟨.int (Value.wrapped (c.number now key + step)), none⟩ else c.held? key' :=
  Keyed.get?_set c.entries key key' _

theorem held?_delete (hc : c.WellFormed) (key' : String) :
    (c.delete key).held? key' = if key = key' then none else c.held? key' :=
  Keyed.get?_erase hc.entries key key'

theorem held?_purge (hc : c.WellFormed) (key' : String) :
    (c.purge now key).held? key' = if key = key' ∧ c.get? now key = none then none else c.held? key' := by
  unfold purge get?
  cases he : Keyed.get? c.entries key with
  | none =>
    by_cases hk : key = key'
    · subst hk
      simp [held?, he]
    · simp [hk]
  | some e =>
    cases hl : e.isLive now with
    | true => simp [hl]
    | false => simp [hl, held?_delete hc]

/-- **Purging a key changes nothing about what can be had.** -/
theorem get?_purge (hc : c.WellFormed) (key' : String) : (c.purge now key).get? now key' = c.get? now key' := by
  have hpurge : (c.purge now key).held? key' = _ := held?_purge hc key'
  unfold get?
  rw [show Keyed.get? (c.purge now key).entries key' = _ from hpurge]
  split
  · rename_i h
    rw [← h.1]
    exact h.2.symm
  · rfl

theorem get?_set (v : Value) (tag : Option String) (lifetime : Option Nat) (key' : String) :
    (c.set now key v tag lifetime).get? now key' =
      if key = key' then (if lifetime = some 0 then none else some v) else c.get? now key' := by
  unfold get?
  rw [show Keyed.get? (c.set now key v tag lifetime).entries key' = _ from held?_set v tag lifetime key']
  by_cases hkey : key = key'
  · rw [if_pos hkey, if_pos hkey, Option.bind_some, CacheEntry.isLive]
    cases lifetime with
    | none => simp
    | some n => cases n <;> simp
  · rw [if_neg hkey, if_neg hkey]
    rfl

theorem WellFormed.purge (hc : c.WellFormed) : (c.purge now key).WellFormed := by
  unfold Cache.purge
  split
  · split
    · exact hc
    · exact ⟨Keyed.nodup_keys_erase hc.entries _, hc.tags⟩
  · exact hc

theorem WellFormed.set (hc : c.WellFormed) (v : Value) (tag : Option String) (lifetime : Option Nat) :
    (c.set now key v tag lifetime).WellFormed := by
  refine ⟨Keyed.nodup_keys_set hc.entries _ _, ?_⟩
  cases tag with
  | none => exact hc.tags
  | some t => exact Keyed.nodup_keys_set hc.tags _ _

theorem WellFormed.increment (hc : c.WellFormed) (step : Int) : (c.increment now key step).2.WellFormed :=
  ⟨Keyed.nodup_keys_set hc.entries _ _, hc.tags⟩

theorem WellFormed.delete (hc : c.WellFormed) : (c.delete key).WellFormed :=
  ⟨Keyed.nodup_keys_erase hc.entries _, hc.tags⟩

end Entries

theorem number_of_held? {c : Cache} {now : Nat} {key : String} {n : Int} (h : c.held? key = some ⟨.int n, none⟩) :
    c.number now key = ((Value.int n).signed?).getD 0 := by
  unfold number
  rw [get?_of_held? h rfl, Option.bind_some]

theorem number_of_held?_none {c : Cache} {now : Nat} {key : String} (h : c.held? key = none) :
    c.number now key = 0 := by
  unfold number
  rw [get?_of_held?_none h]
  rfl

end DocQuery.Cache
