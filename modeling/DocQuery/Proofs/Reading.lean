import DocQuery.Driver.Memory
import DocQuery.Proofs.Conditions
import DocQuery.Proofs.Sort
import DocQuery.Query

/-!
# Reading from the driver in memory

A select without listeners and without a cache gives the rows that the store finds for the compiled request, and fails
otherwise only if there is no link (`select_on`).  Either way the session stays what it was to whoever reads next: links
come up, counters go on, and that is all (`Carries`).
-/
namespace DocQuery

namespace Pool

/-- A pool goes on as another one: at most some links are new. -/
structure Carries (p p' : Pool Memory) : Prop where
  driver : p'.driver = p.driver
  settings : p'.settings = p.settings
  store : p'.state.store = p.state.store
  refused : p'.state.refused = p.state.refused
  links : ∀ slot l, Keyed.get? p.links slot = some l → Keyed.get? p'.links slot = some l

theorem Carries.refl (p : Pool Memory) : Carries p p := ⟨rfl, rfl, rfl, rfl, fun _ _ h => h⟩

theorem Carries.trans {p p' p'' : Pool Memory} (h : Carries p p') (h' : Carries p' p'') : Carries p p'' :=
  ⟨h'.driver.trans h.driver, h'.settings.trans h.settings, h'.store.trans h.store, h'.refused.trans h.refused,
    fun slot l hl => h'.links slot l (h.links slot l hl)⟩

def CanLink (p : Pool Memory) (slot : Slot) : Prop :=
  (∃ l, Keyed.get? p.links slot = some l) ∨
    (Keyed.get? p.state.refused (p.settings.target slot).1 = none ∧ Memory.isAddress (p.settings.target slot).1 = true)

theorem Carries.canLink {p p' : Pool Memory} (h : Carries p p') {slot : Slot} (hl : CanLink p slot) :
    CanLink p' slot := by
  rcases hl with ⟨l, hl⟩ | ⟨hr, ha⟩
  · exact .inl ⟨l, h.links slot l hl⟩
  · right
    rw [h.refused, h.settings]
    exact ⟨hr, ha⟩

/-- **A link comes up where it can.** -/
theorem link_on {p : Pool Memory} (hm : p.driver = Memory.driver) (slot : Slot) : ∃ p', Carries p p' ∧
    ((CanLink p slot ∧ ∃ l, (link slot).on p = (.ok l, p')) ∨
      (¬ CanLink p slot ∧ ∃ e, (link slot).on p = (.error e, p'))) := by
  unfold link
  rw [Run.on_bind_ok (Run.on_get p)]
  cases hl : Keyed.get? p.links slot with
  | some l => exact ⟨p, Carries.refl p, .inl ⟨.inl ⟨l, hl⟩, l, rfl⟩⟩
  | none =>
    simp only [hm]
    have hdrive : ∀ r m, p.state.connect (p.settings.target slot).1 (p.settings.target slot).2 = (r, m) →
        (drive (Memory.driver.connect (p.settings.target slot).1 (p.settings.target slot).2)).on p
          = (r, { p with state := m }) := by
      intro r m h
      rw [drive, Run.on_within]
      simp only [Memory.driver, Run.on_of, h]
    unfold Memory.connect at hdrive
    cases hr : Keyed.get? p.state.refused (p.settings.target slot).1 with
    | some fault =>
      rw [hr] at hdrive
      rw [Run.on_bind_error (hdrive _ _ rfl)]
      exact ⟨p, Carries.refl p, .inr ⟨by simp [CanLink, hl, hr], _, rfl⟩⟩
    | none =>
      rw [hr] at hdrive
      by_cases ha : Memory.isAddress (p.settings.target slot).1 = true
      · simp only [ha, if_true] at hdrive
        rw [Run.on_bind_ok (hdrive _ _ rfl), Run.on_bind_ok (Run.on_modify _ _)]
        refine ⟨_, ?_, .inl ⟨.inr ⟨hr, ha⟩, _, rfl⟩⟩
        refine ⟨rfl, rfl, rfl, rfl, fun slot' l h => ?_⟩
        have hne : slot ≠ slot' := by
          rintro rfl
          rw [hl] at h
          cases h
        rw [← h]
        exact Keyed.get?_set_ne _ _ hne
      · simp only [ha] at hdrive
        rw [Run.on_bind_error (hdrive _ _ rfl)]
        exact ⟨p, Carries.refl p, .inr ⟨by simp [CanLink, hl, ha], _, rfl⟩⟩

end Pool

theorem FindOptions.get?_optional {α : Type} (key key' : String) (v : Option α) (write : α → Value) :
    Keyed.get? (optional key v write) key' = if key = key' then v.map write else none := by
  cases v with
  | none => simp [optional]
  | some x => simp [optional, Keyed.get?_cons]

def FindPayload.rowsOf (p : FindPayload) (f : Filter) (docs : List Value) : List Value :=
  (window p.options.limit p.options.skip ((p.options.sort.getD []).sort (docs.filter f.holds))).map
    (Value.project (p.options.projection.getD []))

theorem Store.find_eq (st : Store) (ns : Namespace) (p : FindPayload) :
    st.find ns p = (Filter.ofValue p.filter).map fun f => p.rowsOf f (st.documents ns) := by
  unfold Store.find Store.matching
  cases Filter.ofValue p.filter with
  | error e => rfl
  | ok f => rfl

theorem Store.command_eq_ok {s s' : Store} {database : String} {c : Command} {rows : List Value}
    (h : s.command database c = .ok (s', rows)) : s' = s ∨ (c.name = "drop" ∧ ∃ ns, s' = s.drop ns) := by
  unfold Store.command at h
  simp only at h
  split at h
  · obtain ⟨ns, -, h⟩ := bind_eq_ok.1 h
    obtain ⟨docs, -, h⟩ := bind_eq_ok.1 h
    cases h
    exact .inl rfl
  · split at h
    · cases h
    · obtain ⟨ns, -, h⟩ := bind_eq_ok.1 h
      obtain ⟨docs, -, h⟩ := bind_eq_ok.1 h
      cases h
      exact .inl rfl
  · obtain ⟨pipeline, -, h⟩ := bind_eq_ok.1 h
    obtain ⟨ns, -, h⟩ := bind_eq_ok.1 h
    cases h
    exact .inl rfl
  · cases h
    exact .inl rfl
  · rename_i hname
    obtain ⟨ns, -, h⟩ := bind_eq_ok.1 h
    cases h
    exact .inr ⟨hname, ns, rfl⟩
  · cases h
    exact .inl rfl
  · cases h

namespace KeyRule

def shape (r : KeyRule) (q : Request) (doc : Value) : Value :=
  let row := doc.project ((r.findOptions q false).projection.getD [])
  if r.convertId then row.exposeId else row

def rows (r : KeyRule) (q : Request) (f : Filter) (docs : List Value) : List Value :=
  let sorted := SortKeys.sort (q.sort.map fun e => (r.storedName e.1, e.2)) (docs.filter f.holds)
  (window (some q.limitValue) q.skip sorted).map (r.shape q)

theorem rows_eq (r : KeyRule) (q : Request) (filter : Value) (f : Filter) (docs : List Value) :
    r.rows q f docs =
      if r.convertId then ((⟨filter, r.findOptions q false⟩ : FindPayload).rowsOf f docs).map Value.exposeId
      else (⟨filter, r.findOptions q false⟩ : FindPayload).rowsOf f docs := by
  unfold rows FindPayload.rowsOf shape
  cases r.convertId with
  | true => rw [if_pos rfl, List.map_map]; rfl
  | false => rfl

end KeyRule

namespace Session

/-- A session goes on as another one: it reads the same documents by the same rules. -/
structure Carries (s t : Session Memory) : Prop where
  pool : Pool.Carries s.pool t.pool
  naming : t.naming = s.naming
  listeners : t.listeners = s.listeners

theorem Carries.refl (s : Session Memory) : Carries s s := ⟨Pool.Carries.refl _, rfl, rfl⟩

theorem Carries.trans {s t u : Session Memory} (h : Carries s t) (h' : Carries t u) : Carries s u :=
  ⟨h.pool.trans h'.pool, h'.naming.trans h.naming, h'.listeners.trans h.listeners⟩

theorem Carries.keyRule {s t : Session Memory} (h : Carries s t) : t.keyRule = s.keyRule := by
  unfold Session.keyRule settings
  rw [h.pool.settings]

theorem Carries.finalize {s t : Session Memory} (h : Carries s t) (q : Request) : t.finalize q = s.finalize q := by
  unfold Session.finalize tableFor settings
  rw [h.pool.settings, h.naming]

theorem Carries.collection {s t : Session Memory} (h : Carries s t) (q : Request) (slot : Slot) :
    t.collection q slot = s.collection q slot := by
  unfold Session.collection settings
  rw [h.pool.settings]

/-- A session over the driver in memory that no listener waits at before a select. -/
structure Quiet (s : Session Memory) : Prop where
  driver : s.pool.driver = Memory.driver
  listeners : s.hasListener .beforeSelect = false

theorem Carries.quiet {s t : Session Memory} (h : Carries s t) (hs : Quiet s) : Quiet t := by
  refine ⟨h.pool.driver.trans hs.driver, ?_⟩
  unfold hasListener
  rw [h.listeners]
  exact hs.listeners

theorem window_finalize {s : Session Memory} {q : Request} (hp : q.page = none) :
    (s.finalize q).skip = q.skip ∧ (s.finalize q).limitValue = q.limitValue := by
  unfold Session.finalize Request.finalize Request.pageWindow
  rw [hp]
  exact ⟨rfl, rfl⟩

theorem shape_finalize {s : Session Memory} {q : Request} (hq : q.selectedFields = [])
    (hid : s.keyRule.convertId = false) (doc : Value) : s.keyRule.shape (s.finalize q) doc = doc := by
  have hfields : (s.finalize q).selectedFields = [] := hq
  unfold KeyRule.shape KeyRule.findOptions
  rw [hfields, hid]
  rfl

def slotFor (s : Session Memory) (q : Request) : Slot :=
  s.settings.select (readRole q) (s.draws.draw s.draws.next)

theorem endpoint_eq {σ : Type} (s : Session σ) (role : Role) {slot : Slot}
    (hslot : s.settings.select role (s.draws.draw s.draws.next) = slot) : (endpoint role).on s =
      (((Pool.link slot).on s.pool).1.map fun l => (slot, l),
        { s with draws := { s.draws with next := s.draws.next + 1 }, pool := ((Pool.link slot).on s.pool).2 }) := by
  subst hslot
  have hpool : (Pool.endpoint role (s.draws.draw s.draws.next)).on s.pool
      = (Pool.link (s.settings.select role (s.draws.draw s.draws.next)) >>= fun l =>
          pure (s.settings.select role (s.draws.draw s.draws.next), l)).on s.pool := by
    unfold Pool.endpoint
    rw [Run.on_bind_ok (Run.on_get _)]
    rfl
  have hdraw : (draw : Run (Session σ) Nat).on s
      = (.ok (s.draws.draw s.draws.next), { s with draws := { s.draws with next := s.draws.next + 1 } }) := rfl
  unfold endpoint
  rw [Run.on_bind_ok hdraw, pooled, Run.on_within, hpool, Run.on_bind]
  rcases (Pool.link (s.settings.select role (s.draws.draw s.draws.next))).on s.pool with ⟨e | l, p⟩
  · rfl
  · rfl

/-- **An endpoint is found where there can be a link.** -/
theorem endpoint_of_role {s : Session Memory} (hm : s.pool.driver = Memory.driver) (role : Role) :
    ∃ t, Carries s t ∧
      ((s.pool.CanLink (s.settings.select role (s.draws.draw s.draws.next)) ∧ ∃ l, (endpoint role).on s =
          (.ok (s.settings.select role (s.draws.draw s.draws.next), l), t)) ∨
        (¬ s.pool.CanLink (s.settings.select role (s.draws.draw s.draws.next)) ∧
          ∃ e, (endpoint role).on s = (.error e, t))) := by
  obtain ⟨p, hp, hlink⟩ := Pool.link_on hm (s.settings.select role (s.draws.draw s.draws.next))
  refine ⟨{ s with draws := { s.draws with next := s.draws.next + 1 }, pool := p }, ⟨hp, rfl, rfl⟩, ?_⟩
  rw [endpoint_eq s role rfl]
  rcases hlink with ⟨hcan, l, hl⟩ | ⟨hno, e, he⟩
  · left
    rw [hl]
    exact ⟨hcan, l, rfl⟩
  · right
    rw [he]
    exact ⟨hno, e, rfl⟩

theorem endpoint_on {s : Session Memory} (hm : s.pool.driver = Memory.driver) (q : Request) : ∃ t, Carries s t ∧
    ((s.pool.CanLink (s.slotFor q) ∧ ∃ l, (endpoint (readRole q)).on s = (.ok (s.slotFor q, l), t)) ∨
      (¬ s.pool.CanLink (s.slotFor q) ∧ ∃ e, (endpoint (readRole q)).on s = (.error e, t))) :=
  endpoint_of_role hm (readRole q)

theorem deliver_on {s : Session Memory} (hm : s.pool.driver = Memory.driver) (q : Request) (rows : List Value) :
    ∃ t, Carries s t ∧
      (deliver q rows).on s = (.ok (if s.keyRule.convertId then rows.map Value.exposeId else rows), t) := by
  unfold deliver
  rw [Run.on_bind_ok (Run.on_get _)]
  have hdrive : (drive (s.pool.driver.deliver (q.rowShape.getD s.settings.rowShape) rows)).on s = (.ok rows, s) := by
    rw [hm]
    rfl
  rw [Run.on_bind_ok hdrive, Run.on_bind_ok (Run.on_modify _ _)]
  refine ⟨_, ?_, rfl⟩
  exact ⟨Pool.Carries.refl _, rfl, rfl⟩

/-- A find is read from a collection: there is a link, and the filter can be read. -/
structure Finds (s : Session Memory) (q : Request) (p : FindPayload) (ns : Namespace) (f : Filter) : Prop where
  link : s.pool.CanLink (s.slotFor q)
  collection : s.collection q (s.slotFor q) = .ok ns
  filter : Filter.ofValue p.filter = .ok f

theorem openRows_on {s : Session Memory} (hm : s.pool.driver = Memory.driver) (q : Request) (p : FindPayload) :
    ∃ t, Carries s t ∧
      ((∃ ns f, s.collection q (s.slotFor q) = .ok ns ∧ Filter.ofValue p.filter = .ok f ∧
          (openRows q p).on s = (.ok (p.rowsOf f (s.pool.state.store.documents ns)), t)) ∨
        (¬ (∃ ns f, Finds s q p ns f) ∧ ∃ e, (openRows q p).on s = (.error e, t))) := by
  obtain ⟨t, ht, hend⟩ := endpoint_on hm q
  have hmt : t.pool.driver = Memory.driver := ht.pool.driver.trans hm
  unfold openRows
  rcases hend with ⟨-, l, hl⟩ | ⟨hno, e, he⟩
  · rw [Run.on_bind_ok hl]
    simp only
    rw [Run.on_bind_ok (Run.on_get _)]
    have hcoll := ht.collection q (s.slotFor q)
    cases hns : s.collection q (s.slotFor q) with
    | error e =>
      rw [hns] at hcoll
      rw [hcoll, Run.on_bind_error (Run.on_lift _ _)]
      refine ⟨t, ht, .inr ⟨?_, e, rfl⟩⟩
      rintro ⟨ns, f, h⟩
      cases hns.symm.trans h.collection
    | ok ns =>
      rw [hns] at hcoll
      rw [hcoll, Run.on_bind_ok (Run.on_lift _ _)]
      have hdrive : (drive (t.pool.driver.query l ns p q.readPreference)).on t
          = (s.pool.state.store.find ns p, t) := by
        rw [hmt, ← ht.pool.store]
        rfl
      rw [Store.find_eq] at hdrive
      cases hf : Filter.ofValue p.filter with
      | error e =>
        rw [hf] at hdrive
        rw [Run.on_bind_error hdrive]
        refine ⟨t, ht, .inr ⟨?_, e, rfl⟩⟩
        rintro ⟨ns, f, h⟩
        cases hf.symm.trans h.filter
      | ok f =>
        rw [hf] at hdrive
        rw [Run.on_bind_ok hdrive]
        refine ⟨_, ?_, .inl ⟨ns, f, rfl, rfl, rfl⟩⟩
        exact ht.trans ⟨Pool.Carries.refl _, rfl, rfl⟩
  · rw [Run.on_bind_error he]
    refine ⟨t, ht, .inr ⟨?_, e, rfl⟩⟩
    rintro ⟨ns, f, h⟩
    exact hno h.link

theorem call_eq_none {hook : Hook} (q : Request) (outcome : Option Value) :
    ∀ ls : List Listener, ls.any (·.hook == hook) = false → Listener.call hook q outcome ls = (none, [])
  | [], _ => rfl
  | l :: ls, h => by
    rw [List.any_cons, Bool.or_eq_false_iff] at h
    have hne : l.hook ≠ hook := by simpa using h.1
    rw [Listener.call, if_pos (.inl hne)]
    exact call_eq_none q outcome ls h.2

structure Answers (s : Session Memory) (q : Request) (ns : Namespace) (f : Filter) : Prop where
  link : s.pool.CanLink (s.slotFor q)
  collection : s.collection q (s.slotFor q) = .ok ns
  filter : s.keyRule.readFilter q = .ok f

/-- **A select gives the rows of the request**, or fails if the request cannot be read from a collection. -/
theorem select_on {s : Session Memory} (hs : Quiet s) {q : Request} (hc : q.cache = none) : ∃ t, Carries s t ∧
      ((∃ ns f, s.collection q (s.slotFor q) = .ok ns ∧ s.keyRule.readFilter q = .ok f ∧
          (select q).on s = (.ok (s.keyRule.rows q f (s.pool.state.store.documents ns)), t)) ∨
        (¬ (∃ ns f, Answers s q ns f) ∧ ∃ e, (select q).on s = (.error e, t))) := by
  have htrigger : (trigger .beforeSelect q none).on s = (.ok none, { s with notices := s.notices ++ [] }) := by
    unfold trigger
    rw [Run.on_of, call_eq_none q none _ hs.listeners]
  rw [List.append_nil] at htrigger
  unfold select
  rw [Run.on_bind_ok htrigger]
  simp only
  have hcompiled : (compiled (·.find q false)).on s = (s.keyRule.find q false, s) := by
    unfold compiled
    rw [Run.on_bind_ok (Run.on_get _), Run.on_lift]
  cases hp : s.keyRule.find q false with
  | error e =>
    rw [hp] at hcompiled
    rw [Run.on_bind_error hcompiled]
    refine ⟨s, Carries.refl s, .inr ⟨?_, e, rfl⟩⟩
    rintro ⟨ns, f, h⟩
    obtain ⟨fs, hfs, -⟩ := bind_eq_ok.1 h.filter
    rw [KeyRule.find, hfs] at hp
    cases hp
  | ok p =>
    rw [hp] at hcompiled
    rw [Run.on_bind_ok hcompiled]
    obtain ⟨fs, hfs, hpure⟩ := bind_eq_ok.1 hp
    cases hpure
    have hread : ∀ f, s.keyRule.readFilter q = .ok f ↔ Filter.ofValue (.obj fs) = .ok f := by
      intro f
      unfold KeyRule.readFilter
      rw [hfs]
      rfl
    obtain ⟨t, ht, hopen⟩ := openRows_on hs.driver q ⟨.obj fs, s.keyRule.findOptions q false⟩
    have hmt : t.pool.driver = Memory.driver := ht.pool.driver.trans hs.driver
    unfold cached fetch
    rw [hc]
    simp only
    rcases hopen with ⟨ns, f, hns, hf, hrows⟩ | ⟨hno, e, he⟩
    · obtain ⟨u, hu, hdeliver⟩ := deliver_on hmt q
        ((⟨.obj fs, s.keyRule.findOptions q false⟩ : FindPayload).rowsOf f (s.pool.state.store.documents ns))
      rw [ht.keyRule, ← KeyRule.rows_eq] at hdeliver
      refine ⟨u, ht.trans hu, .inl ⟨ns, f, hns, (hread f).2 hf, ?_⟩⟩
      simp only [bind_assoc, pure_bind]
      rw [Run.on_bind_ok hrows, Run.on_bind_ok hdeliver]
      rfl
    · refine ⟨t, ht, .inr ⟨?_, e, ?_⟩⟩
      · rintro ⟨ns, f, h⟩
        exact hno ⟨ns, f, h.link, h.collection, (hread f).1 h.filter⟩
      · simp only [bind_assoc]
        rw [Run.on_bind_error he]

/-- A request is read from one collection whatever slot is drawn for it. -/
def Reads (s : Session Memory) (q : Request) (ns : Namespace) : Prop :=
  ∀ n, s.pool.CanLink (s.settings.select (readRole q) n) ∧
    s.collection q (s.settings.select (readRole q) n) = .ok ns

theorem Carries.answers {s t : Session Memory} (h : Carries s t) {q : Request} {ns : Namespace} (hr : s.Reads q ns)
    {f : Filter} (hf : s.keyRule.readFilter q = .ok f) : t.Answers q ns f := by
  have hslot : t.slotFor q = s.settings.select (readRole q) (t.draws.draw t.draws.next) := by
    unfold slotFor settings
    rw [h.pool.settings]
  obtain ⟨hlink, hns⟩ := hr (t.draws.draw t.draws.next)
  rw [← hslot] at hlink hns
  exact ⟨h.pool.canLink hlink, (h.collection q _).trans hns, by rw [h.keyRule]; exact hf⟩

end Session

namespace Query

theorem finalized_on {σ α : Type} (op : Request → Run (Session σ) α) (q : Query σ) :
    (finalized op).on q = (((op (q.session.finalize q.request)).on q.session).1,
      ⟨((op (q.session.finalize q.request)).on q.session).2, q.session.finalize q.request⟩) := by
  have hfinal : finalize.on q = (.ok (q.session.finalize q.request), ⟨q.session, q.session.finalize q.request⟩) := rfl
  rw [finalized, Run.on_bind_ok hfinal, sessioned, Run.on_within]

/-- **A select on a pending request reads its finalized form.** -/
theorem select_on {w : Query Memory} (hs : w.session.Quiet) (hc : w.request.cache = none) :
    ∃ t, Session.Carries w.session t ∧
      ((∃ ns f, w.session.collection (w.session.finalize w.request) (w.session.slotFor (w.session.finalize w.request))
            = .ok ns ∧
          w.session.keyRule.readFilter (w.session.finalize w.request) = .ok f ∧
          select.on w = (.ok (w.session.keyRule.rows (w.session.finalize w.request) f
            (w.session.pool.state.store.documents ns)), ⟨t, w.session.finalize w.request⟩)) ∨
        (¬ (∃ ns f, w.session.Answers (w.session.finalize w.request) ns f) ∧
          ∃ e, select.on w = (.error e, ⟨t, w.session.finalize w.request⟩))) := by
  have hfinal : finalize.on w =
      (.ok (w.session.finalize w.request), { w with request := w.session.finalize w.request }) := rfl
  obtain ⟨t, ht, hon⟩ := Session.select_on hs (q := w.session.finalize w.request) hc
  refine ⟨t, ht, ?_⟩
  unfold select finalized
  rw [Run.on_bind_ok hfinal, sessioned, Run.on_within]
  rcases hon with ⟨ns, f, hns, hf, hrows⟩ | ⟨hno, e, he⟩
  · rw [hrows]
    exact .inl ⟨ns, f, hns, hf, rfl⟩
  · rw [he]
    exact .inr ⟨hno, e, rfl⟩

end Query

end DocQuery
