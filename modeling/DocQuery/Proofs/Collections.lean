import DocQuery.Proofs.StoredId
import Mathlib.Data.List.Sort

/-!
# Collections are apart

All collections share one list under joined texts.  As long as no database has a dot in its name, a text belongs to one
namespace (`Namespace.text_injective`), however many dots the collection has.  So a collection is what the calls
addressed to it made of it, and a database lists those collections that were written to and not dropped since
(`Memory.collections_apart`).
-/
namespace DocQuery

namespace Namespace

def Undotted (ns : Namespace) : Prop := '.' ∉ ns.database.toList

instance (ns : Namespace) : Decidable ns.Undotted := inferInstanceAs (Decidable ('.' ∉ ns.database.toList))

theorem splitDot_append : ∀ {s : List Char}, '.' ∉ s → ∀ r acc : List Char,
    splitDot (s ++ '.' :: r) acc = some (acc.reverse ++ s, r)
  | [], _, r, acc => by simp [splitDot]
  | c :: s, h, r, acc => by
    rw [List.mem_cons, not_or] at h
    rw [List.cons_append, splitDot, if_neg fun hc => h.1 hc.symm, splitDot_append h.2]
    simp

theorem resolve_text {ns : Namespace} (h : ns.Undotted) (database : String) : resolve database ns.text = ns := by
  have htext : ns.text.toList = ns.database.toList ++ '.' :: ns.collection.toList := by simp [text]
  rw [resolve, htext, splitDot_append h]
  simp

/-- **The text of a namespace tells its database and its collection.** -/
theorem text_injective {ns ns' : Namespace} (h : ns.Undotted) (h' : ns'.Undotted) (htext : ns.text = ns'.text) :
    ns = ns' := by
  rw [← resolve_text h "", htext, resolve_text h']

end Namespace

theorem Text.after?_eq_some {start s rest : String} : Text.after? start s = some rest ↔ s = start ++ rest := by
  unfold Text.after? Text.startsWith
  constructor
  · intro h
    split at h
    · rename_i hprefix
      obtain ⟨r, hr⟩ := List.isPrefixOf_iff_prefix.1 hprefix
      rw [← hr, List.drop_left] at h
      refine String.toList_inj.1 ?_
      rw [← Option.some.inj h, String.toList_append, String.toList_ofList, hr]
    · cases h
  · rintro rfl
    have hprefix : start.toList.isPrefixOf (start ++ rest).toList = true := by
      rw [String.toList_append, List.isPrefixOf_iff_prefix]
      exact List.prefix_append _ _
    rw [if_pos hprefix, String.toList_append, List.drop_left, String.ofList_toList]

/-! ## Names in order -/

namespace Store

variable {s : Store}

theorem mem_collectionNames {database c : String} :
    c ∈ s.collectionNames database ↔ (Keyed.get? s (Namespace.text ⟨database, c⟩)).isSome := by
  rw [collectionNames, (List.mergeSort_perm _ _).mem_iff, List.mem_filterMap]
  constructor
  · rintro ⟨key, hkey, hafter⟩
    rw [Text.after?_eq_some.1 hafter] at hkey
    obtain ⟨e, he, heq⟩ := List.mem_map.1 hkey
    rw [Option.isSome_iff_ne_none]
    intro hnone
    exact Keyed.get?_eq_none.1 hnone e he heq
  · intro h
    obtain ⟨docs, hdocs⟩ := Option.isSome_iff_exists.1 h
    exact ⟨_, List.mem_map_of_mem (Keyed.mem_of_get? hdocs), Text.after?_eq_some.2 rfl⟩

theorem pairwise_collectionNames (hs : (Keyed.keys s).Nodup) (database : String) :
    (s.collectionNames database).Pairwise (· < ·) := by
  have hnodup : ((Keyed.keys s).filterMap (Text.after? (database ++ "."))).Nodup := by
    refine List.Nodup.filterMap (fun key key' c hc hc' => ?_) hs
    rw [Text.after?_eq_some.1 hc, Text.after?_eq_some.1 hc']
  have hsorted := List.pairwise_mergeSort' (· ≤ ·) ((Keyed.keys s).filterMap (Text.after? (database ++ ".")))
  have hapart := (List.mergeSort_perm ((Keyed.keys s).filterMap (Text.after? (database ++ ".")))
    (fun a b => decide (a ≤ b))).nodup_iff.2 hnodup
  refine (hsorted.and hapart).imp fun {a b} h => ?_
  rw [← String.not_le]
  exact fun hba => h.2 (String.le_antisymm h.1 hba)

end Store

/-! ## Identifiers that are made up -/

namespace IdSupply

/-- The identifiers that were made up from one state of a supply to a later one. -/
def madeUp (supply later : IdSupply) : List ObjectId :=
  (List.range (later.next - supply.next)).map fun i => supply.draw (supply.next + i)

def ofList (ids : List ObjectId) : IdSupply := { draw := fun i => ids.getD i (.stamped 0 0) }

def Gives (supply : IdSupply) (ids : List ObjectId) : Prop :=
  ∀ i id, ids[i]? = some id → supply.draw (supply.next + i) = id

theorem gives_ofList (ids : List ObjectId) : (ofList ids).Gives ids := by
  intro i id hid
  simp [ofList, hid]

theorem Gives.cons {supply : IdSupply} {id : ObjectId} {ids : List ObjectId} (h : supply.Gives (id :: ids)) :
    supply.take.1 = id ∧ supply.take.2.Gives ids := by
  refine ⟨h 0 id rfl, fun i id' hid => ?_⟩
  rw [← h (i + 1) id' hid, take, Nat.add_assoc, Nat.add_comm 1 i]

theorem madeUp_take {supply later : IdSupply} (h : supply.take.2.next ≤ later.next) :
    supply.madeUp later = supply.take.1 :: supply.take.2.madeUp later := by
  have hcount : later.next - supply.next = (later.next - (supply.next + 1)) + 1 := by
    simp only [take] at h
    omega
  simp only [madeUp, take, hcount, List.range_succ_eq_map, List.map_cons, List.map_map, Nat.add_zero]
  congr 1
  refine List.map_congr_left fun i _ => ?_
  simp [Nat.add_assoc, Nat.add_comm 1 i]

end IdSupply

namespace Write

/-- Two runs end with the same documents and counters, and fail alike. -/
def Alike (a b : WriteState × Option Fault) : Prop :=
  a.1.docs = b.1.docs ∧ a.1.result = b.1.result ∧ a.2 = b.2

/-- Of two supplies either none is used, and something holds, or each gives one identifier, and it holds if these are
the same. -/
def Asks (s s' t t' : IdSupply) (P : Prop) : Prop :=
  (t = s ∧ t' = s' ∧ P) ∨ (t = s.take.2 ∧ t' = s'.take.2 ∧ (s.take.1 = s'.take.1 → P))

theorem Asks.imp {s s' t t' : IdSupply} {P Q : Prop} (h : Asks s s' t t' P) (hpq : P → Q) : Asks s s' t t' Q := by
  rcases h with ⟨ht, ht', hp⟩ | ⟨ht, ht', hp⟩
  · exact .inl ⟨ht, ht', hpq hp⟩
  · exact .inr ⟨ht, ht', fun he => hpq (hp he)⟩

section

variable (s s' : IdSupply)

theorem asks_ensureId (doc : Value) :
    Asks s s' (ensureId s doc).2 (ensureId s' doc).2 ((ensureId s doc).1 = (ensureId s' doc).1) := by
  cases doc with
  | obj fs =>
    by_cases hhas : Keyed.has fs "_id" = true
    · rw [ensureId, ensureId, if_pos hhas, if_pos hhas]
      exact .inl ⟨rfl, rfl, rfl⟩
    · rw [ensureId, ensureId, if_neg hhas, if_neg hhas]
      exact .inr ⟨rfl, rfl, fun he => congrArg (fun id => Value.obj (Keyed.set fs "_id" id.toValue)) he⟩
  | _ => exact .inl ⟨rfl, rfl, rfl⟩

variable (ns : Namespace) (docs : List Value) (r : WriteResult)

theorem supply_insert (document : Value) (st : WriteState) :
    (insert ns document st).1.supply = (ensureId st.supply document).2 := by
  rw [insert]
  simp only
  split
  · rfl
  · split
    · rfl
    · rfl

theorem asks_insert (document : Value) :
    Asks s s' (insert ns document ⟨docs, r, s⟩).1.supply (insert ns document ⟨docs, r, s'⟩).1.supply
      (Alike (insert ns document ⟨docs, r, s⟩) (insert ns document ⟨docs, r, s'⟩)) := by
  rw [supply_insert, supply_insert]
  refine (asks_ensureId s s' document).imp fun hdoc => ?_
  simp only [insert, hdoc]
  cases idOf? (ensureId s' document).1 with
  | none => exact ⟨rfl, rfl, rfl⟩
  | some id =>
    simp only
    split
    · exact ⟨rfl, rfl, rfl⟩
    · exact ⟨rfl, rfl, rfl⟩

theorem asks_upsert (filter change : Value) :
    Asks s s' (upsert filter change ⟨docs, r, s⟩).1.supply (upsert filter change ⟨docs, r, s'⟩).1.supply
      (Alike (upsert filter change ⟨docs, r, s⟩) (upsert filter change ⟨docs, r, s'⟩)) := by
  unfold upsert
  rcases Change.apply change (seed (.obj []) filter) with ⟨doc, e | changed⟩
  · exact .inl ⟨rfl, rfl, rfl, rfl, rfl⟩
  · refine (asks_ensureId s s' doc).imp fun hdoc => ?_
    simp only [hdoc]
    exact ⟨rfl, rfl, rfl⟩

theorem asks_update (filter change : Value) (multi wantsUpsert : Bool) :
    Asks s s' (update filter change multi wantsUpsert ⟨docs, r, s⟩).1.supply
      (update filter change multi wantsUpsert ⟨docs, r, s'⟩).1.supply
      (Alike (update filter change multi wantsUpsert ⟨docs, r, s⟩)
        (update filter change multi wantsUpsert ⟨docs, r, s'⟩)) := by
  unfold update
  cases Filter.ofValue filter with
  | error e => exact .inl ⟨rfl, rfl, rfl, rfl, rfl⟩
  | ok f =>
    simp only
    cases (updateMatches f change multi docs).fault with
    | some e => exact .inl ⟨rfl, rfl, rfl, rfl, rfl⟩
    | none =>
      simp only
      split
      · exact asks_upsert s s' _ _ filter change
      · exact .inl ⟨rfl, rfl, rfl, rfl, rfl⟩

/-- **A write uses at most one identifier**, and what it does depends on the supply by that one only. -/
theorem asks_one (w : WriteModel) :
    Asks s s' (one ns ⟨docs, r, s⟩ w).1.supply (one ns ⟨docs, r, s'⟩ w).1.supply
      (Alike (one ns ⟨docs, r, s⟩ w) (one ns ⟨docs, r, s'⟩ w)) := by
  cases w with
  | insert document => exact asks_insert s s' ns docs r document
  | update filter change multi upsert => exact asks_update s s' docs r filter change multi upsert
  | delete filter limit =>
    rw [one, one, delete, delete]
    cases Filter.ofValue filter with
    | error e => exact .inl ⟨rfl, rfl, rfl, rfl, rfl⟩
    | ok f => exact .inl ⟨rfl, rfl, rfl, rfl, rfl⟩

end

theorem next_le_one (ns : Namespace) (st : WriteState) (w : WriteModel) :
    st.supply.next ≤ (one ns st w).1.supply.next := by
  obtain ⟨docs, r, s⟩ := st
  rcases asks_one s s ns docs r w with ⟨h, -⟩ | ⟨h, -⟩
  · rw [h]
  · rw [h]
    exact Nat.le_succ _

theorem next_le_all (ns : Namespace) : ∀ (b : BulkWrite) (st : WriteState),
    st.supply.next ≤ (all ns b st).1.supply.next
  | [], _ => Nat.le_refl _
  | w :: ws, st => by
    have hone := next_le_one ns st w
    rw [all]
    rcases hst : one ns st w with ⟨st', _ | f⟩
    · rw [hst] at hone
      exact hone.trans (next_le_all ns ws st')
    · rw [hst] at hone
      exact hone

theorem alike_first {ns : Namespace} {w : WriteModel} {ws : BulkWrite} {docs : List Value} {r : WriteResult}
    {s s' : IdSupply} (h : s'.Gives (s.madeUp (all ns (w :: ws) ⟨docs, r, s⟩).1.supply)) :
    Alike (one ns ⟨docs, r, s⟩ w) (one ns ⟨docs, r, s'⟩ w) ∧ ((one ns ⟨docs, r, s⟩ w).2 = none →
      (one ns ⟨docs, r, s'⟩ w).1.supply.Gives
        ((one ns ⟨docs, r, s⟩ w).1.supply.madeUp (all ns ws (one ns ⟨docs, r, s⟩ w).1).1.supply)) := by
  have hasks := asks_one s s' ns docs r w
  rw [all] at h
  rcases hst : one ns ⟨docs, r, s⟩ w with ⟨⟨docs₁, r₁, t⟩, fault⟩
  rw [hst] at h hasks
  rcases hasks with ⟨ht, ht', halike⟩ | ⟨ht, ht', halike⟩
  · simp only at ht
    subst ht
    refine ⟨halike, fun hfault => ?_⟩
    simp only at hfault
    subst hfault
    rw [ht']
    exact h
  · -- the identifier that the write uses is the first that is made up, whether the rest runs or not
    simp only at ht
    subst ht
    cases fault with
    | none =>
      simp only at h
      rw [IdSupply.madeUp_take (next_le_all ns ws ⟨docs₁, r₁, s.take.2⟩)] at h
      rw [ht']
      exact ⟨halike h.cons.1.symm, fun _ => h.cons.2⟩
    | some f =>
      simp only at h
      rw [IdSupply.madeUp_take (Nat.le_refl _)] at h
      exact ⟨halike h.cons.1.symm, fun hfault => by cases hfault⟩

/-- **Of the supply a bulk write depends on the identifiers that it makes up**, and on nothing else. -/
theorem alike_all (ns : Namespace) : ∀ (b : BulkWrite) (docs : List Value) (r : WriteResult) (s s' : IdSupply),
    s'.Gives (s.madeUp (all ns b ⟨docs, r, s⟩).1.supply) → Alike (all ns b ⟨docs, r, s⟩) (all ns b ⟨docs, r, s'⟩)
  | [], _, _, _, _, _ => ⟨rfl, rfl, rfl⟩
  | w :: ws, docs, r, s, s', h => by
    obtain ⟨⟨hdocs, hresult, hfault⟩, hrest⟩ := alike_first h
    rw [all, all]
    rcases hst : one ns ⟨docs, r, s⟩ w with ⟨⟨docs₁, r₁, t⟩, fault⟩
    rcases hst' : one ns ⟨docs, r, s'⟩ w with ⟨⟨docs₁', r₁', t'⟩, fault'⟩
    simp only [hst, hst'] at hdocs hresult hfault hrest
    subst hdocs hresult hfault
    cases fault with
    | none => exact alike_all ns ws docs₁ r₁ t t' (hrest rfl)
    | some f => exact ⟨rfl, rfl, rfl⟩

end Write

/-! ## Calls and what they are addressed to -/

theorem Store.command_drop (s : Store) (database : String) {c : Command} (h : c.name = "drop") :
    s.command database c =
      (commandTarget database "drop" c).map fun ns => (s.drop ns, okRow [("ns", .str ns.text)]) := by
  unfold Store.command
  simp only [h]
  cases commandTarget database "drop" c with
  | error f => rfl
  | ok ns => rfl

theorem Store.documents_drop {s : Store} (hs : (Keyed.keys s).Nodup) (ns : Namespace) :
    (s.drop ns).documents ns = [] := by
  rw [documents, drop, Keyed.get?_erase hs, if_pos rfl]
  rfl

namespace Memory

namespace Call

/-- The collection that a call is addressed to: that of a bulk write, or the one to drop.  Other commands, and one that
drops without a name, have none. -/
def target? : Call → Option Namespace
  | write ns _ => some ns
  | command database c => if c.name = "drop" then (Store.commandTarget database "drop" c).toOption else none

def Undotted (call : Call) : Prop := ∀ ns, call.target? = some ns → ns.Undotted

def Drops (ns : Namespace) : Call → Prop
  | write _ _ => False
  | command database c => (command database c).target? = some ns

/-- What a call does to the documents of its collection, with the identifiers that it makes up. -/
def redo (docs : List Value) : Call × List ObjectId → List Value
  | (write ns b, ids) => (Write.all ns b { docs := docs, supply := .ofList ids }).1.docs
  | (command _ _, _) => []

theorem store_on_command (m : Memory) (database : String) (c : Command) :
    ((command database c).on m).store = ((command database c).target?).elim m.store m.store.drop := by
  rw [on, Memory.command, target?]
  by_cases hname : c.name = "drop"
  · rw [Store.command_drop m.store database hname, if_pos hname]
    cases Store.commandTarget database "drop" c with
    | error f => rfl
    | ok ns => rfl
  · rw [if_neg hname]
    cases hrun : m.store.command database c with
    | error f => rfl
    | ok out =>
      obtain ⟨s, rows⟩ := out
      rcases Store.command_eq_ok hrun with rfl | ⟨hdrop, -⟩
      · rfl
      · exact absurd hdrop hname

theorem get?_on_write (m : Memory) (ns : Namespace) (b : BulkWrite) (key : String) :
    Keyed.get? ((write ns b).on m).store key =
      if ns.text = key then some (Write.all ns b { docs := m.store.documents ns, supply := m.supply }).1.docs
      else Keyed.get? m.store key := Keyed.get?_set m.store ns.text key _

section

variable {m : Memory} {call : Call} {ns : Namespace}

theorem nodup_keys_on (hm : (Keyed.keys m.store).Nodup) : (Keyed.keys (call.on m).store).Nodup :=
  store_on (P := fun s => (Keyed.keys s).Nodup) hm (fun ns _ _ => Keyed.nodup_keys_set hm ns.text _)
    fun ns => Keyed.nodup_keys_erase hm ns.text

/-- **A call leaves all collections alone that it is not addressed to.** -/
theorem get?_on_of_ne (hm : (Keyed.keys m.store).Nodup) (hns : ns.Undotted) (hcall : call.Undotted)
    (h : call.target? ≠ some ns) : Keyed.get? (call.on m).store ns.text = Keyed.get? m.store ns.text := by
  have hapart : ∀ ns', call.target? = some ns' → ns'.text ≠ ns.text := fun ns' htarget htext => by
    rw [Namespace.text_injective (hcall ns' htarget) hns htext] at htarget
    exact h htarget
  cases call with
  | write ns' b => rw [get?_on_write, if_neg (hapart ns' rfl)]
  | command database c =>
    rw [store_on_command]
    cases htarget : (command database c).target? with
    | none => rfl
    | some ns' =>
      rw [Option.elim_some, Store.drop, Keyed.get?_erase hm, if_neg (hapart ns' htarget)]

theorem documents_on_of_ne (hm : (Keyed.keys m.store).Nodup) (hns : ns.Undotted) (hcall : call.Undotted)
    (h : call.target? ≠ some ns) : (call.on m).store.documents ns = m.store.documents ns := by
  rw [Store.documents, Store.documents, get?_on_of_ne hm hns hcall h]

theorem documents_on_of_target (hm : (Keyed.keys m.store).Nodup) (h : call.target? = some ns) :
    (call.on m).store.documents ns = redo (m.store.documents ns) (call, m.supply.madeUp (call.on m).supply) := by
  cases call with
  | write ns' b =>
    obtain rfl : ns' = ns := Option.some.inj h
    have halike := Write.alike_all ns' b (m.store.documents ns') {} m.supply _ (IdSupply.gives_ofList _)
    exact (Store.documents_setDocuments _ _ _).trans halike.1
  | command database c =>
    rw [store_on_command, h, Option.elim_some, Store.documents_drop hm]
    rfl

theorem isSome_on (hm : (Keyed.keys m.store).Nodup) (hns : ns.Undotted) (hcall : call.Undotted) :
    (Keyed.get? (call.on m).store ns.text).isSome ↔
      (∃ b, call = write ns b) ∨ (Keyed.get? m.store ns.text).isSome ∧ ¬ call.Drops ns := by
  by_cases htarget : call.target? = some ns
  · cases call with
    | write ns' b =>
      obtain rfl : ns' = ns := Option.some.inj htarget
      rw [get?_on_write, if_pos rfl]
      simp
    | command database c =>
      rw [store_on_command, htarget, Option.elim_some, Store.drop, Keyed.get?_erase hm, if_pos rfl]
      simp [Drops, htarget]
  · rw [get?_on_of_ne hm hns hcall htarget]
    cases call with
    | write ns' b =>
      have hne : ns' ≠ ns := fun h => htarget (congrArg some h)
      simp [Drops, hne]
    | command database c => simp [Drops, htarget]

end

end Call

/-! ## Runs -/

def addressed (ns : Namespace) : List Call → Memory → List (Call × List ObjectId)
  | [], _ => []
  | call :: calls, m =>
    if call.target? = some ns then
      (call, m.supply.madeUp (call.on m).supply) :: addressed ns calls (call.on m)
    else addressed ns calls (call.on m)

/-- A collection was written to, and not dropped since. -/
def Lives (ns : Namespace) (calls : List Call) : Prop :=
  ∃ before b behind, calls = before ++ .write ns b :: behind ∧ ∀ call ∈ behind, ¬ call.Drops ns

theorem lives_cons {ns : Namespace} {call : Call} {calls : List Call} :
    Lives ns (call :: calls) ↔ ((∃ b, call = .write ns b) ∧ ∀ c ∈ calls, ¬ c.Drops ns) ∨ Lives ns calls := by
  constructor
  · rintro ⟨before, b, behind, hsplit, hbehind⟩
    cases before with
    | nil =>
      obtain ⟨rfl, rfl⟩ := List.cons.inj hsplit
      exact .inl ⟨⟨b, rfl⟩, hbehind⟩
    | cons c before =>
      obtain ⟨rfl, rfl⟩ := List.cons.inj hsplit
      exact .inr ⟨before, b, behind, rfl, hbehind⟩
  · rintro (⟨⟨b, rfl⟩, hbehind⟩ | ⟨before, b, behind, rfl, hbehind⟩)
    · exact ⟨[], b, calls, rfl, hbehind⟩
    · exact ⟨call :: before, b, behind, rfl, hbehind⟩

section

variable {ns : Namespace}

theorem nodup_keys_after : ∀ (calls : List Call) {m : Memory}, (Keyed.keys m.store).Nodup →
    (Keyed.keys (after calls m).store).Nodup
  | [], _, h => h
  | _ :: calls, _, h => nodup_keys_after calls (Call.nodup_keys_on h)

/-- **The documents of a collection are what the calls addressed to it make**, one after the other. -/
theorem documents_after (hns : ns.Undotted) : ∀ {calls : List Call} {m : Memory}, (Keyed.keys m.store).Nodup →
    (∀ call ∈ calls, call.Undotted) →
    (after calls m).store.documents ns = (addressed ns calls m).foldl Call.redo (m.store.documents ns)
  | [], _, _, _ => rfl
  | call :: calls, m, hm, hcalls => by
    obtain ⟨hcall, hrest⟩ := List.forall_mem_cons.1 hcalls
    rw [after, documents_after hns (Call.nodup_keys_on hm) hrest, addressed]
    by_cases htarget : call.target? = some ns
    · rw [if_pos htarget, List.foldl_cons, Call.documents_on_of_target hm htarget]
    · rw [if_neg htarget, Call.documents_on_of_ne hm hns hcall htarget]

theorem isSome_after (hns : ns.Undotted) : ∀ {calls : List Call} {m : Memory}, (Keyed.keys m.store).Nodup →
    (∀ call ∈ calls, call.Undotted) → ((Keyed.get? (after calls m).store ns.text).isSome ↔
      Lives ns calls ∨ (Keyed.get? m.store ns.text).isSome ∧ ∀ call ∈ calls, ¬ call.Drops ns)
  | [], m, _, _ => by simp [after, Lives]
  | call :: calls, m, hm, hcalls => by
    obtain ⟨hcall, hrest⟩ := List.forall_mem_cons.1 hcalls
    rw [after, isSome_after hns (Call.nodup_keys_on hm) hrest, Call.isSome_on hm hns hcall, lives_cons,
      List.forall_mem_cons]
    tauto

end

/-- **A store is a map from databases to collections to documents**: a collection has what the calls addressed to it
made, calls to others leave it alone, and a database lists what was written to and not dropped since. -/
theorem collections_apart {m : Memory} (hm : m.store = []) {calls : List Call}
    (hcalls : ∀ call ∈ calls, call.Undotted) :
    (∀ ns : Namespace, ns.Undotted →
      (after calls m).store.documents ns = (addressed ns calls m).foldl Call.redo [] ∧
      ∀ call : Call, call.Undotted → call.target? ≠ some ns →
        (call.on (after calls m)).store.documents ns = (after calls m).store.documents ns) ∧
    ∀ database : String, '.' ∉ database.toList →
      ((after calls m).store.collectionNames database).Pairwise (· < ·) ∧
      ∀ c, c ∈ (after calls m).store.collectionNames database ↔ Lives ⟨database, c⟩ calls := by
  have hempty : (Keyed.keys m.store).Nodup := by simp [hm, Keyed.keys]
  have hnodup := nodup_keys_after calls hempty
  refine ⟨fun ns hns => ⟨?_, fun call hcall => Call.documents_on_of_ne hnodup hns hcall⟩, fun database hdot => ?_⟩
  · rw [documents_after hns hempty hcalls, hm]
    rfl
  · refine ⟨Store.pairwise_collectionNames hnodup database, fun c => ?_⟩
    have hns : Namespace.Undotted ⟨database, c⟩ := hdot
    rw [Store.mem_collectionNames, isSome_after hns hempty hcalls, hm]
    simp

def dottedCalls : List Call :=
  [.write ⟨"app", "a.b"⟩ [.insert (counts [("_id", 1)])],
    .write ⟨"shop", "a.b"⟩ [],
    .write ⟨"app", "t"⟩ [.insert (.obj [])],
    .write ⟨"app", "t"⟩ [.insert .null],
    .command "shop" (.build "drop" (.str "app.a.b") [])]

theorem undotted_dottedCalls : ∀ call ∈ dottedCalls, call.Undotted := by
  have hall : ∀ call ∈ dottedCalls, ∃ ns, call.target? = some ns ∧ ns.Undotted := by
    refine List.forall_mem_cons.2 ⟨⟨_, rfl, by decide⟩, List.forall_mem_cons.2 ⟨⟨_, rfl, by decide⟩,
      List.forall_mem_cons.2 ⟨⟨_, rfl, by decide⟩, List.forall_mem_cons.2 ⟨⟨_, rfl, by decide⟩,
      List.forall_mem_singleton.2 ⟨⟨"app", "a.b"⟩, by decide, by decide⟩⟩⟩⟩⟩
  intro call hcall ns hns
  obtain ⟨ns', htarget, hdot⟩ := hall call hcall
  obtain rfl : ns' = ns := Option.some.inj (htarget.symm.trans hns)
  exact hdot

theorem collections_apart_dropped : unused.store = [] ∧ (∀ call ∈ dottedCalls, call.Undotted) ∧
    Lives ⟨"shop", "a.b"⟩ dottedCalls ∧ ¬ Lives ⟨"app", "a.b"⟩ dottedCalls ∧
    (after dottedCalls unused).store.documents ⟨"app", "t"⟩ =
      (addressed ⟨"app", "t"⟩ dottedCalls unused).foldl Call.redo [] ∧
    (addressed ⟨"app", "t"⟩ dottedCalls unused).map Prod.snd = [[.stamped 0 0], []] := by
  obtain ⟨hdocs, hnames⟩ := collections_apart (m := unused) rfl undotted_dottedCalls
  refine ⟨rfl, undotted_dottedCalls, ((hnames "shop" (by decide)).2 _).1 ?_, fun h => ?_,
    (hdocs ⟨"app", "t"⟩ (by decide)).1, by decide⟩
  · exact Store.mem_collectionNames.2 (by decide)
  · have hthere := Store.mem_collectionNames.1 (((hnames "app" (by decide)).2 _).2 h)
    revert hthere
    decide

end Memory

end DocQuery
