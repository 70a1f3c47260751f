import DocQuery.Proofs.CachedRead
import DocQuery.Proofs.Documents
import DocQuery.Proofs.WalkFilter
import Mathlib.Algebra.Group.Nat.Defs

/-!
# Select, find and count agree

The three reads compile the same filter and differ in the window: a find takes one row, and a count says how many a
select would give.  On a single server they succeed or fail together, and give the rows, the first row and the number of
rows (`Session.read_paths_agree`).
-/
namespace DocQuery

/-! ## Windows -/

theorem length_window_congr {docs docs' : List Value} (h : docs.length = docs'.length) (limit skip : Option Nat) :
    (window limit skip docs).length = (window limit skip docs').length := by
  unfold window
  split
  · split
    · rw [List.length_take, List.length_take, List.length_drop, List.length_drop, h]
    · rw [List.length_drop, List.length_drop, h]
  · rw [List.length_drop, List.length_drop, h]

theorem window_filter_pos (limit skip : Option Nat) (docs : List Value) :
    window (limit.filter (0 < ·)) (skip.filter (0 < ·)) docs = window limit skip docs := by
  have hskip : (skip.filter (0 < ·)).getD 0 = skip.getD 0 := by
    cases skip with
    | none => rfl
    | some n => by_cases hn : 0 < n <;> simp [Option.filter, hn]; omega
  unfold window
  rw [hskip]
  cases limit with
  | none => rfl
  | some n => by_cases hn : 0 < n <;> simp [Option.filter, hn]

/-- **The first of a window is the only one of the window of one.** -/
theorem head?_window_one (limit skip : Option Nat) (docs : List Value) :
    (window (some 1) skip docs).head? = (window limit skip docs).head? := by
  have hone : (window (some 1) skip docs).head? = (docs.drop (skip.getD 0)).head? := by
    simp [window, List.head?_take]
  rw [hone]
  unfold window
  split
  · split
    · rename_i n hn
      rw [List.head?_take, if_neg (Nat.pos_iff_ne_zero.1 hn)]
    · rfl
  · rfl

/-! ## The three reads on a store -/

namespace KeyRule

/-- **A count says how many documents the window of its request has.** -/
theorem countCommand_eq {r : KeyRule} {q : Request} {fs : Fields} (h : r.compileFilter q = .ok fs) :
    ∃ c, r.countCommand q = .ok c ∧ ∀ (st : Store) database, (st.command database c).map Prod.snd =
      (Filter.ofValue (.obj fs)).map fun f => Store.okRow [("n", .ofNat (window (some q.limitValue) q.skip
        ((st.documents (.resolve database q.tableName)).filter f.holds)).length)] := by
  refine ⟨_, by rw [countCommand, h]; rfl, fun st database => ?_⟩
  have hunsigned : ∀ n : Option Nat, (n.map Value.ofNat).bind Value.unsigned? = n := fun n => by
    cases n <;> simp [Value.ofNat, Value.unsigned?]
  unfold Store.command Store.matching Store.commandTarget
  simp only [Command.build, Command.name, List.head_cons, Command.get?, List.cons_append, List.nil_append,
    Keyed.get?_cons, Keyed.get?_append, FindOptions.get?_optional, timeLimit, String.reduceEq, if_true, if_false,
    Option.none_or, Option.or_none, hunsigned, window_filter_pos, Option.bind_some, Value.str?, Value.orNull,
    Option.getD_some]
  cases Filter.ofValue (.obj fs) with
  | error e => rfl
  | ok f => rfl

end KeyRule

theorem Store.length_documents {st : Store} {bound : Nat} (hpos : 0 < bound) (h : ∀ e ∈ st, e.2.length < bound)
    (ns : Namespace) : (st.documents ns).length < bound := by
  rw [Store.documents]
  cases hget : Keyed.get? st ns.text with
  | none => exact hpos
  | some docs => exact h _ (Keyed.mem_of_get? hget)

namespace Session

/-! ## What the reads make of what is fetched -/

def fetched {σ : Type} (s : Session σ) (q : Request) (p : Plan) : Except Fault (List Value) := ((p.fetch q).on s).1

section

variable {σ α : Type} {s : Session σ} {q : Request}

def behind {σ : Type} (s : Session σ) (q : Request) : Except Fault Plan → Session σ
  | .ok p => ((p.fetch q).on s).2
  | .error _ => s

theorem perform_on (r : Read) (hcache : (r.target q).cache = none) : (r.perform q).on s =
    ((r.plan s.keyRule (r.target q)).bind fun p =>
      (s.fetched (r.target q) p).map fun rows => r.answer (r.reduce rows),
      s.behind (r.target q) (r.plan s.keyRule (r.target q))) := by
  have hcompiled := Read.compiled_on (r.plan · (r.target q)) s
  unfold Read.perform cached
  rw [Run.on_bind, hcompiled, hcache]
  cases r.plan s.keyRule (r.target q) with
  | error e => rfl
  | ok p =>
    simp only [Except.bind, fetched, behind]
    rcases hon : (p.fetch (r.target q)).on s with ⟨e | rows, t⟩
    · rw [Run.on_bind_error (Read.gather_on hon)]
      rfl
    · rw [Run.on_bind_ok (Read.gather_on hon)]
      rfl

theorem on_of_perform {m : Run (Session σ) α} {f : α → Answer} (hf : Function.Injective f) {r : Read}
    (h : (m >>= fun a => pure (f a)).on s = (r.perform q).on s) {x : Except Fault α} {t : Session σ}
    (hx : (r.perform q).on s = (x.map f, t)) : m.on s = (x, t) := by
  rw [← h, Run.on_bind] at hx
  rcases hm : m.on s with ⟨e | a, u⟩
  · rw [hm] at hx
    cases x with
    | error e' =>
      cases hx
      rfl
    | ok b => cases hx
  · rw [hm] at hx
    cases x with
    | error e' => cases hx
    | ok b =>
      obtain ⟨hvalue, hstate⟩ := Prod.mk.inj hx
      rw [hf (Except.ok.inj hvalue), show u = t from hstate]

theorem select_on_eq (hs : s.hasListener .beforeSelect = false) (hc : q.cache = none) : (select q).on s =
    ((s.keyRule.find q false).bind fun p => s.fetched q (.find p),
      s.behind q ((s.keyRule.find q false).map .find)) := by
  refine on_of_perform (fun _ _ h => Answer.rows.inj h) (Read.perform_select hs q) ?_
  rw [perform_on .select hc]
  simp only [Read.plan, Read.target]
  cases s.keyRule.find q false with
  | error e => rfl
  | ok p =>
    simp only [Except.map, Except.bind]
    cases s.fetched q (.find p) <;> rfl

theorem find_on_eq (hs : s.hasListener .beforeFind = false) (hc : q.cache = none) : (find q).on s =
    ((s.keyRule.find q true).bind fun p => (s.fetched q (.find p)).map fun rows => present (rows.headD .null),
      s.behind q ((s.keyRule.find q true).map .find)) := by
  refine on_of_perform (fun _ _ h => Answer.row.inj h) (Read.perform_find hs q) ?_
  rw [perform_on .find hc]
  simp only [Read.plan, Read.target]
  cases s.keyRule.find q true with
  | error e => rfl
  | ok p =>
    simp only [Except.map, Except.bind]
    cases s.fetched q (.find p) <;> rfl

theorem count_on_eq (hc : q.cache = none) : (count q).on s =
    ((s.keyRule.countCommand q).bind fun c => (s.fetched q (.command c)).map fun rows =>
        countOf (((rows.head?).bind (·.field? "n")).getD (.int 0)),
      s.behind q ((s.keyRule.countCommand q).map .command)) := by
  refine on_of_perform (fun _ _ h => Answer.number.inj h) (Read.perform_count s q) ?_
  rw [perform_on .count hc]
  simp only [Read.plan, Read.target]
  cases s.keyRule.countCommand q with
  | error e => rfl
  | ok c =>
    simp only [Except.map, Except.bind]
    cases s.fetched q (.command c) <;> rfl

end

/-! ## A single server -/

/-- One server, the driver in memory, and no listener before a read. -/
structure Standalone (s : Session Memory) : Prop where
  driver : s.pool.driver = Memory.driver
  selects : s.hasListener .beforeSelect = false
  finds : s.hasListener .beforeFind = false
  topology : s.settings.topology = .standalone

section

variable {s t : Session Memory} {q : Request}

theorem select_standalone {settings : Settings} (h : settings.topology = .standalone) (role : Role) (n : Nat) :
    settings.select role n = .standalone := by
  have hone : settings.choices role = [.standalone] := by rw [Settings.choices.eq_def, h]
  simp only [Settings.select, hone, List.length_singleton, Nat.mod_one]
  rfl

theorem Standalone.uniform (hs : Standalone s) (hl : s.pool.CanLink .standalone) :
    Uniform s fun _ => s.settings.database where
  driver := hs.driver
  selects := hs.selects
  finds := hs.finds
  link role n := by
    rw [select_standalone hs.topology]
    exact hl
  database role n := by
    rw [select_standalone hs.topology]
    rfl

theorem Carries.standalone (h : Carries s t) (hs : Standalone s) : Standalone t where
  driver := h.pool.driver.trans hs.driver
  selects := by
    rw [hasListener, h.listeners]
    exact hs.selects
  finds := by
    rw [hasListener, h.listeners]
    exact hs.finds
  topology := by
    rw [show t.settings = s.settings from h.pool.settings]
    exact hs.topology

/-- **A plan fetches the rows of the store**, or there is no link for any plan. -/
theorem Standalone.fetch_on (hs : Standalone s) (q : Request) :
    (s.pool.CanLink .standalone ∧ ∀ p : Plan, p.Keeps → ∃ u, Carries s u ∧ (p.fetch q).on s =
      ((p.rows s.pool.state.store s.settings.database q.tableName).map s.exposed, u)) ∨
    (¬ s.pool.CanLink .standalone ∧ ∃ e u, Carries s u ∧ ∀ p : Plan, (p.fetch q).on s = (.error e, u)) := by
  have hslot : s.slotFor q = .standalone := by rw [slotFor, select_standalone hs.topology]
  obtain ⟨u, hu, ⟨hcan, -⟩ | ⟨hno, e, he⟩⟩ := endpoint_on hs.driver q
  · rw [hslot] at hcan
    exact .inl ⟨hcan, fun p hp => plan_on (hs.uniform hcan) q hp⟩
  · rw [hslot] at hno
    refine .inr ⟨hno, e, u, hu, fun p => ?_⟩
    cases p with
    | find p => rw [Plan.fetch, fetch, openRows, bind_assoc, Run.on_bind_error he]
    | command c => rw [Plan.fetch, command, Run.on_bind_error he]

theorem Standalone.carries_behind (hs : Standalone s) (q : Request) {p : Except Fault Plan}
    (hp : ∀ p', p = .ok p' → p'.Keeps) : Carries s (s.behind q p) := by
  cases p with
  | error e => exact Carries.refl s
  | ok p =>
    rw [behind]
    rcases hs.fetch_on q with ⟨-, hrows⟩ | ⟨-, e, u, hu, hfail⟩
    · obtain ⟨u, hu, hon⟩ := hrows p (hp p rfl)
      rwa [hon]
    · rwa [hfail]

theorem Standalone.fetched_carries (hs : Standalone s) (hcan : s.pool.CanLink .standalone) (h : Carries s t)
    (q : Request) {p : Plan} (hp : p.Keeps) : t.fetched q p = s.fetched q p := by
  have hexposed : t.exposed = s.exposed := by
    funext rows
    rw [exposed, exposed, h.keyRule]
  obtain ⟨u, -, hon⟩ := plan_on (hs.uniform hcan) q hp
  obtain ⟨u', -, hon'⟩ := plan_on (h.uniform (hs.uniform hcan)) q hp
  rw [fetched, fetched, hon, hon', h.pool.store, hexposed]

theorem exposed_rowsOf (s : Session Memory) (q : Request) (filter : Value) (one : Bool) (f : Filter)
    (docs : List Value) : s.exposed ((⟨filter, s.keyRule.findOptions q one⟩ : FindPayload).rowsOf f docs) =
      (window (some (if one then 1 else q.limitValue)) q.skip
        (SortKeys.sort (q.sort.map fun e => (s.keyRule.storedName e.1, e.2)) (docs.filter f.holds))).map
          (s.keyRule.shape q) := by
  unfold exposed FindPayload.rowsOf KeyRule.shape
  cases s.keyRule.convertId with
  | true =>
    rw [if_pos rfl, List.map_map]
    rfl
  | false => rfl

theorem isObj_shape (r : KeyRule) (q : Request) {doc : Value} (h : doc.isObj = true) :
    (r.shape q doc).isObj = true := by
  unfold KeyRule.shape
  split
  · exact Value.isObj_exposeId (Value.isObj_project h _)
  · exact Value.isObj_project h _

theorem present_headD {rows : List Value} (h : ∀ row ∈ rows, row.isObj = true) :
    present (rows.headD .null) = rows.head? := by
  cases rows with
  | nil => rfl
  | cons row rest =>
    have hrow := h row List.mem_cons_self
    cases row with
    | obj fs => rfl
    | _ => cases hrow

theorem countOf_ofNat {n : Nat} (h : n < 2 ^ 53) : countOf (.ofNat n) = n := by
  have hle : (n : Int) ≤ Int.pow 2 53 := by
    have : Int.pow 2 53 = ((2 ^ 53 : Nat) : Int) := rfl
    omega
  rw [Value.ofNat, countOf, if_pos hle, Int.toNat_natCast]

theorem present_window (r : KeyRule) (q : Request) {docs : List Value} (hobj : ∀ d ∈ docs, d.isObj = true) :
    present (((window (some 1) q.skip docs).map (r.shape q)).headD .null) =
      ((window (some q.limitValue) q.skip docs).map (r.shape q)).head? := by
  rw [present_headD, List.head?_map, List.head?_map, head?_window_one]
  intro row hrow
  obtain ⟨d, hd, rfl⟩ := List.mem_map.1 hrow
  exact isObj_shape r q (hobj d ((window_sublist _ _ _).subset hd))

theorem countOf_window {docs docs' : List Value} (hperm : docs'.Perm docs) (hlength : docs.length < 2 ^ 53)
    (limit skip : Option Nat) :
    countOf (.ofNat (window limit skip docs).length) = (window limit skip docs').length := by
  rw [length_window_congr hperm.length_eq]
  exact countOf_ofNat ((window_sublist limit skip docs).length_le.trans_lt hlength)

theorem exposed_okRow (s : Session Memory) (n : Nat) :
    s.exposed (Store.okRow [("n", .ofNat n)]) = Store.okRow [("n", .ofNat n)] := by
  unfold exposed
  split <;> rfl

theorem Standalone.fetched_find (hs : Standalone s) (hcan : s.pool.CanLink .standalone) (htable : q.tableName ≠ "")
    (p : FindPayload) : s.fetched q (.find p) = (Filter.ofValue p.filter).map fun f =>
      s.exposed (p.rowsOf f (s.pool.state.store.documents (.resolve s.settings.database q.tableName))) := by
  obtain ⟨u, -, hon⟩ := plan_on (hs.uniform hcan) q (p := .find p) trivial
  rw [fetched, hon, Plan.rows, if_neg htable, Store.find_eq]
  cases Filter.ofValue p.filter <;> rfl

theorem Standalone.fetched_count (hs : Standalone s) (hcan : s.pool.CanLink .standalone) {fs : Fields}
    (hfs : s.keyRule.compileFilter q = .ok fs) : ∃ c, s.keyRule.countCommand q = .ok c ∧
      s.fetched q (.command c) = (Filter.ofValue (.obj fs)).map fun f => Store.okRow [("n", .ofNat (window
        (some q.limitValue) q.skip ((s.pool.state.store.documents (.resolve s.settings.database q.tableName)).filter
          f.holds)).length)] := by
  obtain ⟨c, hc, hrows⟩ := KeyRule.countCommand_eq hfs
  have hkeeps : (Plan.command c).Keeps := Read.plan_keeps (k := s.keyRule) (q := q) (r := .count) (by
    rw [Read.plan, hc]
    rfl)
  obtain ⟨u, -, hon⟩ := plan_on (hs.uniform hcan) q hkeeps
  refine ⟨c, hc, ?_⟩
  rw [fetched, hon, Plan.rows, hrows]
  cases Filter.ofValue (.obj fs) with
  | error e => rfl
  | ok f => exact congrArg Except.ok (exposed_okRow s _)

/-- **Select, find and count agree** on the rows, the first row and the number of rows, or on a fault. -/
theorem Standalone.reads_agree (hs : Standalone s) (hst : s.pool.state.store.HoldsDocuments)
    (hsize : ∀ e ∈ s.pool.state.store, e.2.length < 2 ^ 53) (htable : q.tableName ≠ "") (hcache : q.cache = none) :
    (∃ rows, ((select q).on s).1 = .ok rows ∧ ((find q).on s).1 = .ok rows.head? ∧
        ((count q).on s).1 = .ok rows.length) ∨
      ∃ e, ((select q).on s).1 = .error e ∧ ((find q).on s).1 = .error e ∧ ((count q).on s).1 = .error e := by
  rw [select_on_eq hs.selects hcache, find_on_eq hs.finds hcache, count_on_eq hcache]
  cases hfs : s.keyRule.compileFilter q with
  | error e =>
    right
    refine ⟨e, ?_, ?_, ?_⟩
    · rw [KeyRule.find, hfs]; rfl
    · rw [KeyRule.find, hfs]; rfl
    · rw [KeyRule.countCommand, hfs]; rfl
  | ok fs =>
    have hfind : ∀ one, s.keyRule.find q one = .ok ⟨.obj fs, s.keyRule.findOptions q one⟩ := fun one => by
      rw [KeyRule.find, hfs]
      rfl
    rw [hfind, hfind]
    simp only [Except.bind]
    rcases hs.fetch_on q with ⟨hcan, -⟩ | ⟨-, e, u, -, hfail⟩
    · obtain ⟨c, hc, hcount⟩ := hs.fetched_count hcan hfs
      rw [hc, hs.fetched_find hcan htable, hs.fetched_find hcan htable]
      simp only [hcount]
      cases Filter.ofValue (.obj fs) with
      | error e => exact .inr ⟨e, rfl, rfl, rfl⟩
      | ok f =>
        left
        simp only [Except.map, exposed_rowsOf, if_true, Bool.false_eq_true, if_false]
        have hobj : ∀ d ∈ s.pool.state.store.documents (.resolve s.settings.database q.tableName), d.isObj = true :=
          fun d hd => (hst.documents _ d hd).isObj
        have hlength := Store.length_documents (by decide) hsize (.resolve s.settings.database q.tableName)
        generalize s.pool.state.store.documents (.resolve s.settings.database q.tableName) = docs at hobj hlength ⊢
        have hsorted := SortKeys.sort_perm (q.sort.map fun e => (s.keyRule.storedName e.1, e.2)) (docs.filter f.holds)
        refine ⟨_, rfl, congrArg Except.ok ?_, congrArg Except.ok ?_⟩
        · exact present_window _ _ fun d hd => hobj d (List.mem_filter.1 (hsorted.mem_iff.1 hd)).1
        · rw [List.length_map]
          exact countOf_window hsorted (List.length_filter_le _ docs |>.trans_lt hlength) _ _
    · right
      refine ⟨e, ?_, ?_, ?_⟩
      · rw [fetched, hfail]
      · rw [fetched, hfail]; rfl
      · obtain ⟨c, hc, -⟩ := KeyRule.countCommand_eq hfs
        rw [hc]
        simp only [fetched, hfail]
        rfl

theorem Standalone.carries_reads (hs : Standalone s) (hcache : q.cache = none) :
    Carries s ((select q).on s).2 ∧ Carries s ((find q).on s).2 ∧ Carries s ((count q).on s).2 := by
  rw [select_on_eq hs.selects hcache, find_on_eq hs.finds hcache, count_on_eq hcache]
  have hbehind : ∀ r : Read, Carries s (s.behind q (r.plan s.keyRule q)) := fun r =>
    hs.carries_behind q fun p hp => Read.plan_keeps hp
  exact ⟨hbehind .select, hbehind .find, hbehind .count⟩

/-- **Reads that follow others give the same.** -/
theorem Standalone.reads_again (hs : Standalone s) (hcan : s.pool.CanLink .standalone) (h : Carries s t)
    (hcache : q.cache = none) : ((select q).on t).1 = ((select q).on s).1 ∧
      ((find q).on t).1 = ((find q).on s).1 ∧ ((count q).on t).1 = ((count q).on s).1 := by
  have ht := h.standalone hs
  have hfetched : ∀ {p : Plan}, p.Keeps → t.fetched q p = s.fetched q p := hs.fetched_carries hcan h q
  rw [select_on_eq hs.selects hcache, find_on_eq hs.finds hcache, count_on_eq hcache, select_on_eq ht.selects hcache,
    find_on_eq ht.finds hcache, count_on_eq hcache, h.keyRule]
  refine ⟨?_, ?_, ?_⟩
  · exact congrArg (Except.bind _) (funext fun p => hfetched trivial)
  · exact congrArg (Except.bind _) (funext fun p => by rw [hfetched (p := .find p) trivial])
  · cases hc : s.keyRule.countCommand q with
    | error e => rfl
    | ok c =>
      have hkeeps : (Plan.command c).Keeps := Read.plan_keeps (k := s.keyRule) (q := q) (r := .count) (by
        rw [Read.plan, hc]
        rfl)
      simp only [Except.bind, hfetched hkeeps]

/-- **Select, find and count agree.**  On a single server, with documents in the store and no directive, they give the
rows, the first row and the number of rows, or the same fault.  What they leave gives the same once more. -/
theorem read_paths_agree (hs : Standalone s) (hst : s.pool.state.store.HoldsDocuments)
    (hsize : ∀ e ∈ s.pool.state.store, e.2.length < 2 ^ 53) (htable : q.tableName ≠ "") (hcache : q.cache = none) :
    ((∃ rows, ((select q).on s).1 = .ok rows ∧ ((find q).on s).1 = .ok rows.head? ∧
        ((count q).on s).1 = .ok rows.length) ∨
      ∃ e, ((select q).on s).1 = .error e ∧ ((find q).on s).1 = .error e ∧ ((count q).on s).1 = .error e) ∧
    (Carries s ((select q).on s).2 ∧ Carries s ((find q).on s).2 ∧ Carries s ((count q).on s).2) ∧
    (s.pool.CanLink .standalone → ∀ t, Carries s t → ((select q).on t).1 = ((select q).on s).1 ∧
      ((find q).on t).1 = ((find q).on s).1 ∧ ((count q).on t).1 = ((count q).on s).1) :=
  ⟨hs.reads_agree hst hsize htable hcache, hs.carries_reads hcache, fun hcan _ h => hs.reads_again hcan h hcache⟩

end

def namesSession : Session Memory :=
  Walk.stored Walk.freshSession ⟨"app", "t"⟩ [.obj [("name", .str "b")], .obj [("name", .str "a")]]

theorem standalone_namesSession : Standalone namesSession := ⟨rfl, rfl, rfl, rfl⟩

theorem isDocument_name (name : String) : (Value.single "name" (.str name)).IsDocument :=
  ⟨Value.WellFormed.single (.str name), rfl⟩

theorem read_paths_agree_names : Standalone namesSession ∧ namesSession.pool.state.store.HoldsDocuments ∧
    (∀ e ∈ namesSession.pool.state.store, e.2.length < 2 ^ 53) ∧
    (namesSession.finalize (Walk.namesBefore "c")).tableName ≠ "" ∧
    (namesSession.finalize (Walk.namesBefore "c")).cache = none ∧
    ((select (namesSession.finalize (Walk.namesBefore "c"))).on namesSession).1 =
      .ok [.obj [("name", .str "b")], .obj [("name", .str "a")]] ∧
    ((find (namesSession.finalize (Walk.namesBefore "c"))).on namesSession).1 = .ok (some (.obj [("name", .str "b")])) ∧
    ((count (namesSession.finalize (Walk.namesBefore "c"))).on namesSession).1 = .ok 2 := by
  have hst : namesSession.pool.state.store.HoldsDocuments := by
    intro e he
    obtain rfl := List.mem_singleton.1 he
    exact List.forall_mem_cons.2 ⟨isDocument_name "b", List.forall_mem_singleton.2 (isDocument_name "a")⟩
  have hsize : ∀ e ∈ namesSession.pool.state.store, e.2.length < 2 ^ 53 := by
    intro e he
    obtain rfl := List.mem_singleton.1 he
    decide
  have htable : (namesSession.finalize (Walk.namesBefore "c")).tableName ≠ "" := by decide
  have hselect : ((select (namesSession.finalize (Walk.namesBefore "c"))).on namesSession).1 =
      .ok [.obj [("name", .str "b")], .obj [("name", .str "a")]] := rfl
  obtain ⟨⟨rows, hrows, hfind, hcount⟩ | ⟨e, he, -⟩, -⟩ :=
    read_paths_agree standalone_namesSession hst hsize htable rfl
  · cases hselect.symm.trans hrows
    exact ⟨standalone_namesSession, hst, hsize, htable, rfl, hselect, hfind, hcount⟩
  · cases hselect.symm.trans he

end Session

end DocQuery
