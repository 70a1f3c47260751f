import DocQuery.Proofs.ReadPaths

/-!
# Pages

A page is a window on the rows of its request without a window (`Query.select_page`), and the windows of the pages from
the first to the last one lie side by side (`flatMap_pages`).  So the pages of a request are its rows, cut
(`Query.pages_partition`): read on one session, or one after the other (`Query.selectPages`).
-/
namespace DocQuery

/-! ## Cutting a list -/

def pageCount (rows size : Nat) : Nat := (rows + size - 1) / size

theorem le_mul_pageCount (rows : Nat) {size : Nat} (hs : 0 < size) : rows ≤ size * pageCount rows size := by
  have hmod := Nat.mod_lt (rows + size - 1) hs
  have hdiv := Nat.div_add_mod (rows + size - 1) size
  unfold pageCount
  omega

theorem flatMap_pages {α : Type} (rows : List α) (size : Nat) : ∀ n : Nat,
    (List.range n).flatMap (fun i => (rows.drop (size * i)).take size) = rows.take (size * n)
  | 0 => by simp
  | n + 1 => by
    rw [List.range_succ, List.flatMap_append, flatMap_pages rows size n, List.flatMap_singleton, ← List.take_add,
      Nat.mul_succ]

namespace Request

def unpaged (q : Request) : Request := { q with page := none, skip := none, limit := none }

def rowsBefore (number : Int) (size : Nat) : Nat := min (size * ((max number 1).toNat - 1)) (Nat.pow 2 64 - 1)

def pageOf (number : Int) (size : Nat) (rows : List Value) : List Value :=
  (rows.drop (rowsBefore number size)).take size

theorem pageWindow_setPage (q : Request) (number : Int) {perPage : Int} (hp : 1 ≤ perPage) :
    (q.setPage number perPage).pageWindow = (some (rowsBefore number perPage.toNat), some perPage.toNat) := by
  have hsize : (q.setPage number perPage).perPage ⟨number, perPage⟩ = perPage.toNat := if_pos hp
  unfold pageWindow
  rw [setPage]
  simp only
  rw [← setPage, hsize]
  rfl

section

variable {rows : List Value} {size : Nat} {number : Int}

theorem pageOf_eq (hrows : rows.length < 2 ^ 63) :
    pageOf number size rows = (rows.drop (size * ((max number 1).toNat - 1))).take size := by
  have hbound : rows.length ≤ Nat.pow 2 64 - 1 := by
    have h63 : (2 : Nat) ^ 63 ≤ Nat.pow 2 64 - 1 := by decide
    omega
  unfold pageOf rowsBefore
  rcases Nat.le_total (size * ((max number 1).toNat - 1)) (Nat.pow 2 64 - 1) with hle | hle
  · rw [Nat.min_eq_left hle]
  · rw [Nat.min_eq_right hle, List.drop_eq_nil_of_le hbound, List.drop_eq_nil_of_le (hbound.trans hle)]

/-- **The pages from the first to the last one are the rows.** -/
theorem flatMap_pageOf (hrows : rows.length < 2 ^ 63) (hs : 0 < size) :
    (List.range (pageCount rows.length size)).flatMap (fun i : Nat => pageOf ((i : Int) + 1) size rows) = rows := by
  have hpage : (fun i : Nat => pageOf ((i : Int) + 1) size rows) = fun i => (rows.drop (size * i)).take size := by
    funext i
    have hnumber : (max ((i : Int) + 1) 1).toNat - 1 = i := by omega
    rw [pageOf_eq hrows, hnumber]
  rw [hpage, flatMap_pages, List.take_of_length_le (le_mul_pageCount _ hs)]

theorem pageOf_behind (hrows : rows.length < 2 ^ 63) (hs : 0 < size)
    (hn : (pageCount rows.length size : Int) < number) : pageOf number size rows = [] := by
  have hcount : pageCount rows.length size ≤ (max number 1).toNat - 1 := by omega
  rw [pageOf_eq hrows, List.drop_eq_nil_of_le
    ((le_mul_pageCount _ hs).trans (Nat.mul_le_mul_left size hcount)), List.take_nil]

theorem pageOf_of_lt_one (hn : number < 1) : pageOf number size rows = pageOf 1 size rows := by
  have hfirst : max number 1 = max 1 1 := by omega
  unfold pageOf rowsBefore
  rw [hfirst]

end

end Request

/-! ## What a select takes its window of -/

theorem KeyRule.compileFilter_of_plain {r : KeyRule} {q q' : Request}
    (hq : ∀ e ∈ q.filter.entries, ∃ c, e.2.2 = .plain c) (hf : q'.filter = q.filter) :
    r.compileFilter q' = r.compileFilter q := by
  rw [compileFilter_eq, compileFilter_eq, hf]
  refine congrArg (collect []) (List.map_congr_left fun e he => ?_)
  obtain ⟨l, field, c⟩ := e
  obtain ⟨c, rfl⟩ := hq _ he
  rfl

namespace Session

section

variable {s t : Session Memory} {q : Request}

theorem fetched_find_eq (hm : s.pool.driver = Memory.driver) (q : Request) (p : FindPayload) :
    s.fetched q (.find p) = ((endpoint (readRole q)).on s).1.bind fun e =>
      (s.collection q e.1).bind fun ns => (s.pool.state.store.find ns p).map s.exposed := by
  obtain ⟨t, ht, hend⟩ := endpoint_on hm q
  have hmt : t.pool.driver = Memory.driver := ht.pool.driver.trans hm
  have hexposed : t.exposed = s.exposed := by
    funext rows
    rw [exposed, exposed, ht.keyRule]
  unfold fetched Plan.fetch fetch openRows
  simp only [bind_assoc]
  rcases hend with ⟨-, l, hl⟩ | ⟨-, e, he⟩
  · rw [Run.on_bind_ok hl, Run.on_bind_ok (Run.on_get _), hl, ht.collection]
    simp only [Except.bind]
    cases s.collection q (s.slotFor q) with
    | error e => rw [Run.on_bind_error (Run.on_lift _ _)]
    | ok ns =>
      have hdrive : (drive (t.pool.driver.query l ns p q.readPreference)).on t = (s.pool.state.store.find ns p, t) := by
        rw [hmt, ← ht.pool.store]
        rfl
      rw [Run.on_bind_ok (Run.on_lift _ _)]
      cases hfind : s.pool.state.store.find ns p with
      | error e =>
        rw [Run.on_bind_error (hdrive.trans (by rw [hfind]))]
        simp only [hfind]
        rfl
      | ok rows =>
        obtain ⟨u, -, hrecorded⟩ := recorded_on hmt q (p.statement ns) rows
        rw [Run.on_bind_ok (hdrive.trans (by rw [hfind])), pure_bind, hrecorded, hexposed]
        simp only [hfind]
        rfl
  · rw [Run.on_bind_error he, he]
    rfl

/-- The documents that a request means, in its order: what its window is taken of. -/
def ordered (s : Session Memory) (q : Request) : Except Fault (List Value) :=
  (s.keyRule.compileFilter q).bind fun fs => ((endpoint (readRole q)).on s).1.bind fun e =>
    (s.collection q e.1).bind fun ns => (Filter.ofValue (.obj fs)).map fun f =>
      SortKeys.sort (q.sort.map fun e => (s.keyRule.storedName e.1, e.2))
        ((s.pool.state.store.documents ns).filter f.holds)

/-- **A find shows its window of what is ordered**, or fails as that does. -/
theorem fetched_eq_window (hm : s.pool.driver = Memory.driver) (q : Request) (one : Bool) :
    ((s.keyRule.find q one).bind fun p => s.fetched q (.find p)) = (s.ordered q).map fun docs =>
      (window (some (if one then 1 else q.limitValue)) q.skip docs).map (s.keyRule.shape q) := by
  unfold ordered KeyRule.find
  cases s.keyRule.compileFilter q with
  | error e => rfl
  | ok fs =>
    simp only [Except.bind, Bind.bind, Pure.pure, Except.pure]
    rw [fetched_find_eq hm]
    cases ((endpoint (readRole q)).on s).1 with
    | error e => rfl
    | ok e =>
      cases hns : s.collection q e.1 with
      | error e =>
        simp only [Except.bind, hns]
        rfl
      | ok ns =>
        simp only [Except.bind, hns]
        rw [Store.find_eq]
        cases Filter.ofValue (.obj fs) with
        | error e => rfl
        | ok f =>
          simp only [Except.map]
          rw [exposed_rowsOf]

theorem select_eq_window (hs : s.Quiet) (hc : q.cache = none) : ((select q).on s).1 =
    (s.ordered q).map fun docs => (window (some q.limitValue) q.skip docs).map (s.keyRule.shape q) := by
  rw [select_on_eq hs.listeners hc]
  exact fetched_eq_window hs.driver q false

theorem ordered_carries (hs : s.Quiet) {ns : Namespace} (hr : s.Reads q ns) (h : Carries s t) :
    t.ordered q = s.ordered q := by
  have hordered : ∀ {u : Session Memory}, Carries s u → u.ordered q = (s.keyRule.compileFilter q).bind fun fs =>
      (Filter.ofValue (.obj fs)).map fun f => SortKeys.sort (q.sort.map fun e => (s.keyRule.storedName e.1, e.2))
        ((s.pool.state.store.documents ns).filter f.holds) := by
    intro u hu
    have hslot : u.slotFor q = s.settings.select (readRole q) (u.draws.draw u.draws.next) := by
      unfold slotFor settings
      rw [hu.pool.settings]
    obtain ⟨hlink, hns⟩ := hr (u.draws.draw u.draws.next)
    rw [← hslot] at hlink hns
    obtain ⟨v, hv, ⟨hcan, l, hl⟩ | ⟨hno, e, he⟩⟩ := endpoint_on (hu.quiet hs).driver q
    · unfold ordered
      rw [hl, hu.keyRule, hu.pool.store]
      simp only [Except.bind]
      rw [hu.collection, hns]
    · exact absurd (hu.pool.canLink hlink) hno
  rw [hordered h, hordered (Carries.refl s)]

end

end Session

/-! ## Pages of a request -/

namespace Query

section

variable {s : Session Memory} {q : Request} {perPage : Int}

theorem select_fst (s : Session Memory) (q : Request) :
    (select.on ⟨s, q⟩).1 = ((Session.select (s.finalize q)).on s).1 := by
  rw [select, finalized_on]

/-- **A page is a window on all rows**, or fails as reading all of them does. -/
theorem select_page (hs : s.Quiet) (hc : q.cache = none) (hq : ∀ e ∈ q.filter.entries, ∃ c, e.2.2 = .plain c)
    (hp : 1 ≤ perPage) (number : Int) : (select.on ⟨s, q.setPage number perPage⟩).1 =
      (select.on ⟨s, q.unpaged⟩).1.map (Request.pageOf number perPage.toNat) := by
  have hwindow := q.pageWindow_setPage number hp
  have hskip : (s.finalize (q.setPage number perPage)).skip = some (Request.rowsBefore number perPage.toNat) :=
    congrArg Prod.fst hwindow
  have hlimit : (s.finalize (q.setPage number perPage)).limitValue = perPage.toNat := by
    rw [Request.limitValue, show (s.finalize (q.setPage number perPage)).limit = some perPage.toNat from
      congrArg Prod.snd hwindow]
    rfl
  have hordered : s.ordered (s.finalize (q.setPage number perPage)) = s.ordered (s.finalize q.unpaged) := by
    have hfilter : s.keyRule.compileFilter (s.finalize (q.setPage number perPage)) =
        s.keyRule.compileFilter (s.finalize q.unpaged) := KeyRule.compileFilter_of_plain hq rfl
    unfold Session.ordered
    rw [hfilter]
    rfl
  have hpos : 0 < perPage.toNat := by omega
  rw [select_fst, select_fst, Session.select_eq_window (q := s.finalize (q.setPage number perPage)) hs hc,
    Session.select_eq_window (q := s.finalize q.unpaged) hs hc, hordered, hskip, hlimit]
  cases s.ordered (s.finalize q.unpaged) with
  | error e => rfl
  | ok docs =>
    -- what is shown of a document does not depend on the window
    have hshape : s.keyRule.shape (s.finalize (q.setPage number perPage)) =
      s.keyRule.shape (s.finalize q.unpaged) := rfl
    refine congrArg Except.ok ?_
    rw [hshape, Request.pageOf, ← List.map_drop, ← List.map_take]
    simp only [window, if_pos hpos, Option.getD_some]
    rfl

def selectPages {σ : Type} (q : Request) (perPage : Int) : List Int → Run (Query σ) (List Value)
  | [] => pure []
  | number :: numbers => do
    setRequest (q.setPage number perPage)
    let rows ← select
    return rows ++ (← selectPages q perPage numbers)

/-- **Pages that are selected one after the other are those of the rows at the beginning.** -/
theorem selectPages_on (hs : s.Quiet) (hc : q.cache = none) (hq : ∀ e ∈ q.filter.entries, ∃ c, e.2.2 = .plain c)
    (hp : 1 ≤ perPage) {ns : Namespace} (hr : s.Reads (s.finalize q) ns) {rows : List Value}
    (hrows : (select.on ⟨s, q.unpaged⟩).1 = .ok rows) : ∀ (numbers : List Int) (w : Query Memory),
      Session.Carries s w.session → ∃ w', Session.Carries s w'.session ∧ (selectPages q perPage numbers).on w =
        (.ok (numbers.flatMap fun number => Request.pageOf number perPage.toNat rows), w')
  | [], w, hw => ⟨w, hw, rfl⟩
  | number :: numbers, w, hw => by
    have hall : (select.on ⟨w.session, q.unpaged⟩).1 = .ok rows := by
      rw [← hrows, select_fst, select_fst, hw.finalize,
        Session.select_eq_window (q := s.finalize q.unpaged) (hw.quiet hs) hc,
        Session.select_eq_window (q := s.finalize q.unpaged) hs hc, hw.keyRule,
        Session.ordered_carries hs (q := s.finalize q.unpaged) hr hw]
    have hpage := select_page (hw.quiet hs) hc hq hp number
    rw [hall] at hpage
    obtain ⟨t, ht, hon⟩ := select_on (w := ⟨w.session, q.setPage number perPage⟩) (hw.quiet hs) hc
    have hselect : select.on ⟨w.session, q.setPage number perPage⟩ =
        (.ok (Request.pageOf number perPage.toNat rows), ⟨t, w.session.finalize (q.setPage number perPage)⟩) := by
      refine Prod.ext hpage ?_
      rcases hon with ⟨ns', f, -, -, hok⟩ | ⟨-, e, he⟩
      · rw [hok]
      · rw [he]
    -- the rest is read from where the page leaves the session, which still carries the one at the beginning
    obtain ⟨w', hw', hrest⟩ := selectPages_on hs hc hq hp hr hrows numbers
      ⟨t, w.session.finalize (q.setPage number perPage)⟩ (hw.trans ht)
    refine ⟨w', hw', ?_⟩
    have hset : (setRequest (q.setPage number perPage)).on w =
        (.ok ⟨⟩, ⟨w.session, q.setPage number perPage⟩) := rfl
    rw [selectPages, Run.on_bind_ok hset, Run.on_bind_ok hselect, Run.on_bind_ok hrest]
    rfl

/-- **Pages partition the result.**  Without a directive and without deferred conditions, the pages of a size of at
least one hold the rows of the request without a window: those from the first to the last page side by side are all
rows, later ones are empty, and numbers below one mean the first page.  If the request is read from one collection
whatever is drawn, this is so as well for pages that are selected one after the other. -/
theorem pages_partition (hs : s.Quiet) (hc : q.cache = none) (hq : ∀ e ∈ q.filter.entries, ∃ c, e.2.2 = .plain c)
    (hp : 1 ≤ perPage) {rows : List Value} (hrows : (select.on ⟨s, q.unpaged⟩).1 = .ok rows)
    (hlength : rows.length < 2 ^ 63) :
    (∃ pages : Nat → List Value,
        (∀ i : Nat, (select.on ⟨s, q.setPage ((i : Int) + 1) perPage⟩).1 = .ok (pages i)) ∧
        (List.range (pageCount rows.length perPage.toNat)).flatMap pages = rows) ∧
      (∀ number : Int, (pageCount rows.length perPage.toNat : Int) < number →
        (select.on ⟨s, q.setPage number perPage⟩).1 = .ok []) ∧
      (∀ number : Int, number < 1 →
        (select.on ⟨s, q.setPage number perPage⟩).1 = (select.on ⟨s, q.setPage 1 perPage⟩).1) ∧
      (∀ ns, s.Reads (s.finalize q) ns → ∃ w', Session.Carries s w'.session ∧
        (selectPages q perPage
          ((List.range (pageCount rows.length perPage.toNat)).map fun i : Nat => (i : Int) + 1)).on ⟨s, q⟩
          = (.ok rows, w')) := by
  have hpos : 0 < perPage.toNat := by omega
  have hpage : ∀ number, (select.on ⟨s, q.setPage number perPage⟩).1 =
      .ok (Request.pageOf number perPage.toNat rows) := fun number => by
    rw [select_page hs hc hq hp, hrows]
    rfl
  refine ⟨⟨_, fun i => hpage ((i : Int) + 1), Request.flatMap_pageOf hlength hpos⟩, fun number hn => ?_,
    fun number hn => ?_, fun ns hr => ?_⟩
  · rw [hpage, Request.pageOf_behind hlength hpos hn]
  · rw [hpage, hpage, Request.pageOf_of_lt_one hn]
  · obtain ⟨w', hw', hon⟩ := selectPages_on hs hc hq hp hr hrows
      ((List.range (pageCount rows.length perPage.toNat)).map fun i : Nat => (i : Int) + 1) ⟨s, q⟩
      (Session.Carries.refl s)
    refine ⟨w', hw', ?_⟩
    rw [hon, List.flatMap_map, Request.flatMap_pageOf hlength hpos]

end

theorem pages_partition_names : Session.namesSession.Quiet ∧ (Walk.namesBefore "c").cache = none ∧
    (∀ e ∈ (Walk.namesBefore "c").filter.entries, ∃ c, e.2.2 = .plain c) ∧ (1 : Int) ≤ 1 ∧
    (select.on ⟨Session.namesSession, (Walk.namesBefore "c").unpaged⟩).1 =
      .ok [.obj [("name", .str "b")], .obj [("name", .str "a")]] ∧
    (select.on ⟨Session.namesSession, (Walk.namesBefore "c").setPage 3 1⟩).1 = .ok [] ∧
    ∃ w', Session.Carries Session.namesSession w'.session ∧
      (selectPages (Walk.namesBefore "c") 1 [1, 2]).on ⟨Session.namesSession, Walk.namesBefore "c"⟩ =
        (.ok [.obj [("name", .str "b")], .obj [("name", .str "a")]], w') := by
  have hplain : ∀ e ∈ (Walk.namesBefore "c").filter.entries, ∃ c, e.2.2 = .plain c := fun e he => by
    obtain rfl := List.mem_singleton.1 he
    exact ⟨_, rfl⟩
  have hrows : (select.on ⟨Session.namesSession, (Walk.namesBefore "c").unpaged⟩).1 =
      .ok [.obj [("name", .str "b")], .obj [("name", .str "a")]] := rfl
  have hsize : (1 : Int) ≤ 1 := by decide
  obtain ⟨-, hlater, -, hrun⟩ :=
    pages_partition (s := Session.namesSession) ⟨rfl, rfl⟩ rfl hplain hsize hrows (by decide)
  exact ⟨⟨rfl, rfl⟩, rfl, hplain, hsize, hrows, hlater 3 (by decide),
    hrun ⟨"app", "t"⟩ (Walk.reads_freshSession (q := Walk.freshSession.finalize (Walk.namesBefore "c")) rfl)⟩

end Query

end DocQuery
