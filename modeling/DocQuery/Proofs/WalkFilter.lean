import DocQuery.Proofs.Walk

/-!
# What a walk hands over

Every row that a walk hands over comes from a document that its request means, if the bounds that the walk adds narrow
the request (`batches_given`).
-/
namespace DocQuery

theorem mem_window {limit skip : Option Nat} {docs : List Value} {doc : Value} (h : doc ∈ window limit skip docs) :
    doc ∈ docs :=
  (window_sublist limit skip docs).subset h

namespace Walk

/-- A visitor that keeps the batches and decides by them. -/
def keeping (more : List (List Value) → Bool) : Visitor (List (List Value)) :=
  fun rows log => (log ++ [rows], more (log ++ [rows]))

/-- A row of a document, in whatever collection, that a request means. -/
def Given (s : Session Memory) (q : Request) (row : Value) : Prop :=
  ∃ ns, ∃ doc ∈ s.pool.state.store.documents ns,
    s.keyRule.Matches (s.finalize q) doc ∧ row = s.keyRule.shape (s.finalize q) doc

def AllGiven (s : Session Memory) (q : Request) (log : List (List Value)) : Prop :=
  ∀ batch ∈ log, ∀ row ∈ batch, Given s q row

theorem AllGiven.append {s : Session Memory} {q : Request} {log : List (List Value)} (h : AllGiven s q log)
    {rows : List Value} (hr : ∀ row ∈ rows, Given s q row) : AllGiven s q (log ++ [rows]) := by
  intro batch hb
  rcases List.mem_append.1 hb with hb | hb
  · exact h batch hb
  · rw [List.mem_singleton.1 hb]
    exact hr

theorem rows_given {s : Session Memory} {q q' : Request} {f : Filter} {ns : Namespace}
    (hshape : s.keyRule.shape q' = s.keyRule.shape (s.finalize q))
    (hf : ∀ doc, f.holds doc = true → s.keyRule.Matches (s.finalize q) doc) :
    ∀ row ∈ s.keyRule.rows q' f (s.pool.state.store.documents ns), Given s q row := by
  intro row hrow
  obtain ⟨doc, hdoc, rfl⟩ := List.mem_map.1 hrow
  have hdoc := List.mem_filter.1 (SortKeys.mem_sort.1 (mem_window hdoc))
  exact ⟨ns, doc, hdoc.1, hf doc hdoc.2, by rw [hshape]⟩

section Given

variable {s : Session Memory} {q : Request} {column : String}

theorem lastOf_given {rows : List Value} (hr : rows ≠ []) (hg : ∀ row ∈ rows, Given s q row) {last : Value}
    (hl : lastOf column rows = last) (hn : last.isNull = false) : ∃ doc, s.keyRule.Matches (s.finalize q) doc ∧
      (s.keyRule.shape (s.finalize q) doc).field? column = some last := by
  obtain ⟨ns, doc, -, hm, hrow⟩ := hg _ (List.getLast_mem hr)
  refine ⟨doc, hm, ?_⟩
  rw [lastOf, List.getLast?_eq_some_getLast hr, Option.bind_some, hrow] at hl
  cases hv : (s.keyRule.shape (s.finalize q) doc).field? column with
  | none =>
    rw [hv] at hl
    subst hl
    cases hn
  | some v =>
    rw [hv] at hl
    rw [show v = last from hl]

/-- **A walk whose bounds narrow its request hands over what the request means**, batch by batch. -/
theorem batches_given (hs : s.Quiet) (hc : q.cache = none) (hst : s.keyRule.Steady (s.finalize q))
    (hn : s.keyRule.Narrows (s.finalize q) column) (more : List (List Value) → Bool) (size : Nat) :
    ∀ (n : Nat) (rows : List Value) (w : Walk Memory (List (List Value))), Session.Carries s w.query.session →
      (∀ row ∈ rows, Given s q row) → AllGiven s q w.memory →
      AllGiven s q ((batches (keeping more) q size column n rows).on w).2.memory
  | 0, _, _, _, _, hlog => hlog
  | n + 1, rows, w, hw, hrows, hlog => by
    by_cases hr : rows = []
    · rw [hr, batches_nil]
      exact hlog
    · have hlog' : AllGiven s q (keeping more rows w.memory).1 := hlog.append hrows
      rcases memory_batches_succ (keeping more) q size column n hr w with
        hmemory | ⟨last, rows', w', hl, hnull, hselect, hsame, hmemory⟩
      · rw [hmemory]
        exact hlog'
      · rw [hmemory]
        rw [← hsame] at hlog'
        obtain ⟨doc, hdoc, hv⟩ := lastOf_given hr hrows hl hnull
        obtain ⟨t, ht, hon⟩ := queried_select_on hs
          (w := { w with memory := (keeping more rows w.memory).1 }.withRequest (nextBatch q size column last))
          hw hc rfl
        rcases hon with ⟨-, ns, g, -, hg, hok⟩ | ⟨-, e, he⟩
        · cases hselect.symm.trans hok
          refine batches_given hs hc hst hn more size n _ _ ht (rows_given rfl fun doc' hd => ?_) hlog'
          refine hn doc hdoc last hv hnull doc' ⟨g, ?_, hd⟩
          rw [← hg]
          exact (readFilter_nextBatch hst size column _).symm
        · cases hselect.symm.trans he

end Given

def handed (s : Session Memory) (q : Request) (size : Nat) (column : Option String) (more : List (List Value) → Bool)
    (bound : Nat) : List (List Value) := ((chunks (keeping more) size column bound).on ⟨⟨s, q⟩, []⟩).2.memory

/-- **A walk whose bounds narrow its request hands over what the request means.** -/
theorem handed_given {s : Session Memory} {q : Request} (hs : s.Quiet) (hc : q.cache = none)
    (hst : s.keyRule.Steady (s.finalize q)) (column : Option String)
    (hn : s.keyRule.Narrows (s.finalize q) (column.getD (s.primaryKeyFor q))) (size : Nat)
    (more : List (List Value) → Bool) (bound : Nat) : AllGiven s q (handed s q size column more bound) := by
  have hnil : AllGiven s q [] := fun batch hb => by cases hb
  unfold handed
  rcases Nat.eq_zero_or_pos size with rfl | hpos
  · rw [chunks_zero]
    exact hnil
  · rw [chunks_on (Nat.pos_iff_ne_zero.1 hpos)]
    obtain ⟨t, ht, hon⟩ := queried_select_on hs (w := ⟨⟨s, firstBatch q size (column.getD (s.primaryKeyFor q))⟩,
      ([] : List (List Value))⟩) (Session.Carries.refl s) hc rfl
    rcases hon with ⟨-, ns, f, -, hf, hok⟩ | ⟨-, e, he⟩
    · have hfirst : ∀ row ∈ s.keyRule.rows (s.finalize (firstBatch q size (column.getD (s.primaryKeyFor q)))) f
          (s.pool.state.store.documents ns), Given s q row := by
        refine rows_given rfl fun doc hd => ⟨f, ?_, hd⟩
        rw [← hf]
        exact (readFilter_firstBatch hst size _).symm
      rw [Run.on_bind_ok hok]
      exact batches_given hs hc hst hn more size bound _ _ ht hfirst hnil
    · rw [Run.on_bind_error he]
      exact hnil

/-! ## The way back -/

theorem mem_memory_batches {q : Request} {size : Nat} {column : String} (more : List (List Value) → Bool)
    {batch : List Value} : ∀ (n : Nat) (rows : List Value) (w : Walk Memory (List (List Value))),
      batch ∈ w.memory ∨ (0 < n ∧ rows ≠ [] ∧ batch = rows) →
      batch ∈ ((batches (keeping more) q size column n rows).on w).2.memory
  | 0, _, _, hb => hb.resolve_right fun h => absurd h.1 (Nat.lt_irrefl 0)
  | n + 1, rows, w, hb => by
    by_cases hr : rows = []
    · rw [hr, batches_nil]
      exact hb.resolve_right fun h => h.2.1 hr
    · have hb' : batch ∈ (keeping more rows w.memory).1 := by
        rcases hb with hb | ⟨-, -, rfl⟩
        · exact List.mem_append_left _ hb
        · exact List.mem_append_right _ List.mem_cons_self
      rcases memory_batches_succ (keeping more) q size column n hr w with
        hmemory | ⟨-, rows', w', -, -, -, hsame, hmemory⟩
      · rw [hmemory]
        exact hb'
      · rw [hmemory]
        rw [← hsame] at hb'
        exact mem_memory_batches more n rows' w' (.inl hb')

def stored (s : Session Memory) (ns : Namespace) (docs : List Value) : Session Memory :=
  { s with pool := { s.pool with state := { s.pool.state with store := s.pool.state.store.setDocuments ns docs } } }

theorem documents_stored (s : Session Memory) (ns : Namespace) (docs : List Value) :
    (stored s ns docs).pool.state.store.documents ns = docs := Store.documents_setDocuments _ ns docs

theorem quiet_stored {s : Session Memory} (hs : s.Quiet) (ns : Namespace) (docs : List Value) :
    (stored s ns docs).Quiet := ⟨hs.driver, hs.listeners⟩

theorem mem_rows {r : KeyRule} {q : Request} {f : Filter} {docs : List Value} (hskip : q.skip = some 0)
    (hlimit : docs.length ≤ q.limitValue) {doc : Value} (hd : doc ∈ docs) (hf : f.holds doc = true) :
    r.shape q doc ∈ r.rows q f docs := by
  have hlen := (SortKeys.sort_perm (q.sort.map fun e => (r.storedName e.1, e.2)) (docs.filter f.holds)).length_eq
  have hall : (SortKeys.sort (q.sort.map fun e => (r.storedName e.1, e.2)) (docs.filter f.holds)).length
      ≤ q.limitValue := by
    rw [hlen]
    exact (List.length_filter_le _ _).trans hlimit
  refine List.mem_map.2 ⟨doc, ?_, rfl⟩
  unfold window
  simp only [hskip, Option.getD_some, List.drop_zero, List.take_of_length_le hall, ite_self]
  exact SortKeys.mem_sort.2 (List.mem_filter.2 ⟨hd, hf⟩)

theorem rows_eq_singleton {r : KeyRule} {q : Request} {f : Filter} {docs : List Value} {doc : Value}
    (hskip : q.skip = some 0) (hlimit : 0 < q.limitValue) (hf : docs.filter f.holds = [doc]) :
    r.rows q f docs = [r.shape q doc] := by
  have htake : [doc].take q.limitValue = [doc] := List.take_of_length_le hlimit
  unfold KeyRule.rows window
  rw [hf, hskip]
  simp only [SortKeys.sort, List.foldl_cons, List.foldl_nil, SortKeys.insert, List.reverse_singleton, Option.getD_some,
    List.drop_zero, if_pos hlimit, htake, List.map_singleton]

theorem handed_behind {s : Session Memory} {q : Request} (hs : s.Quiet) (hc : q.cache = none)
    (hst : s.keyRule.Steady (s.finalize q)) (hpage : q.page = none)
    (hshape : ∀ doc, s.keyRule.shape (s.finalize q) doc = doc) {ns : Namespace} (hr : s.Reads (s.finalize q) ns)
    {column : Option String} {name : String} (hname : column.getD (s.primaryKeyFor q) = name) {f g : Filter} {v : Value}
    (hf : s.keyRule.readFilter (s.finalize q) = .ok f)
    (hg : s.keyRule.readFilter { s.finalize q with filter := q.filter.behind name v } = .ok g) {doc doc' : Value}
    (hd : f.holds doc = true) (hv : doc.field? name = some v) (hnull : v.isNull = false) (hfd' : f.holds doc' = false)
    (hd' : g.holds doc' = true) :
    ∃ batch ∈ handed (stored s ns [doc, doc']) q 2 column (fun _ => true) 2, doc' ∈ batch := by
  -- the first batch is the document that the request means, the second one has the other document
  have hs' := quiet_stored hs ns [doc, doc']
  have hkeys : (stored s ns [doc, doc']).keyRule = s.keyRule := rfl
  have hq : ∀ q', (stored s ns [doc, doc']).finalize q' = s.finalize q' := fun _ => rfl
  have hr₁ : (stored s ns [doc, doc']).Reads (s.finalize (firstBatch q 2 name)) ns := hr
  have hr₂ : (stored s ns [doc, doc']).Reads (s.finalize (nextBatch q 2 name v)) ns := hr
  obtain ⟨t, ht, hfirst⟩ := queried_select_of_reads hs' (w := ⟨⟨stored s ns [doc, doc'], firstBatch q 2 name⟩,
    ([] : List (List Value))⟩) (Session.Carries.refl _) hc (hq (firstBatch q 2 name)) hr₁
    ((readFilter_firstBatch hst 2 name).trans hf)
  rw [documents_stored] at hfirst
  have hrows : s.keyRule.rows (s.finalize (firstBatch q 2 name)) f [doc, doc'] = [doc] := by
    obtain ⟨hskip, hlimit⟩ := Session.window_finalize (s := s) (q := firstBatch q 2 name) hpage
    have hfilter : [doc, doc'].filter f.holds = [doc] := by simp [hd, hfd']
    rw [rows_eq_singleton hskip (by rw [hlimit]; exact Nat.two_pos) hfilter]
    exact congrArg (fun row => [row]) (hshape doc)
  rw [hkeys, hrows] at hfirst
  have hlast : lastOf name [doc] = v := by
    rw [lastOf, List.getLast?_singleton, Option.bind_some, hv]
    rfl
  obtain ⟨u, -, hnext⟩ := queried_select_of_reads hs' (w := withRequest ⟨⟨t, s.finalize (firstBatch q 2 name)⟩, [[doc]]⟩
    (nextBatch q 2 name v)) ht hc (hq (nextBatch q 2 name v)) hr₂ ((readFilter_nextBatch hst 2 name v).trans hg)
  rw [documents_stored, hkeys] at hnext
  have hmem : doc' ∈ s.keyRule.rows (s.finalize (nextBatch q 2 name v)) g [doc, doc'] := by
    obtain ⟨hskip, hlimit⟩ := Session.window_finalize (s := s) (q := nextBatch q 2 name v) hpage
    have hlength : [doc, doc'].length ≤ (s.finalize (nextBatch q 2 name v)).limitValue := by
      rw [hlimit]
      exact Nat.le_refl 2
    have hin := mem_rows (r := s.keyRule) hskip hlength (List.mem_cons_of_mem _ List.mem_cons_self) hd'
    rw [show s.keyRule.shape (s.finalize (nextBatch q 2 name v)) doc' = doc' from hshape doc'] at hin
    exact hin
  generalize s.keyRule.rows (s.finalize (nextBatch q 2 name v)) g [doc, doc'] = rows at hnext hmem
  have hwalk : (chunks (keeping fun _ => true) 2 column 2).on ⟨⟨stored s ns [doc, doc'], q⟩, []⟩ =
      (batches (keeping fun _ => true) q 2 name 1 rows).on ⟨⟨u, s.finalize (nextBatch q 2 name v)⟩, [[doc]]⟩ := by
    rw [chunks_on (by decide), show column.getD ((stored s ns [doc, doc']).primaryKeyFor q) = name from hname,
      Run.on_bind_ok hfirst, batches_next 1 (by simp) rfl hlast hnull]
    exact Run.on_bind_ok hnext
  refine ⟨rows, ?_, hmem⟩
  unfold handed
  rw [hwalk]
  exact mem_memory_batches _ 1 _ _ (.inr ⟨Nat.one_pos, List.ne_nil_of_mem hmem, rfl⟩)

/-- **If a walk hands over nothing else than its request means, its bounds narrow the request.** -/
theorem narrows_of_handed {s : Session Memory} {q : Request} (hs : s.Quiet) (hc : q.cache = none)
    (hst : s.keyRule.Steady (s.finalize q)) (hpage : q.page = none)
    (hshape : ∀ doc, s.keyRule.shape (s.finalize q) doc = doc) {ns : Namespace} (hr : s.Reads (s.finalize q) ns)
    (column : Option String) (h : ∀ docs, ∀ batch ∈ handed (stored s ns docs) q 2 column (fun _ => true) 2,
      ∀ row ∈ batch, s.keyRule.Matches (s.finalize q) row) :
    s.keyRule.Narrows (s.finalize q) (column.getD (s.primaryKeyFor q)) := by
  rintro doc ⟨f, hf, hd⟩ v hv hnull doc' ⟨g, hg, hd'⟩
  rw [hshape] at hv
  cases hfd' : f.holds doc' with
  | true => exact ⟨f, hf, hfd'⟩
  | false =>
    obtain ⟨batch, hbatch, hmem⟩ := handed_behind hs hc hst hpage hshape hr rfl hf hg hd hv hnull hfd' hd'
    exact h _ batch hbatch doc' hmem

/-- **A walk keeps to the filter of its request just if its bounds narrow it**, and they do if the first group has no
condition on the column and the column is a single one.  That they must is seen on requests that hand over documents as
they are. -/
theorem chunks_keep_filter {s : Session Memory} {q : Request} (hs : s.Quiet) (hc : q.cache = none)
    (hst : s.keyRule.Steady (s.finalize q)) (column : Option String) :
    (KeyRule.Apart q.filter (column.getD (s.primaryKeyFor q)) →
      s.keyRule.Narrows (s.finalize q) (column.getD (s.primaryKeyFor q))) ∧
    (s.keyRule.Narrows (s.finalize q) (column.getD (s.primaryKeyFor q)) →
      ∀ size more bound, AllGiven s q (handed s q size column more bound)) ∧
    (q.page = none → q.selectedFields = [] → s.keyRule.convertId = false → ∀ ns, s.Reads (s.finalize q) ns →
      (∀ docs size more bound, 0 < size → ∀ batch ∈ handed (stored s ns docs) q size column more bound,
        ∀ row ∈ batch, s.keyRule.Matches (s.finalize q) row) →
      s.keyRule.Narrows (s.finalize q) (column.getD (s.primaryKeyFor q))) := by
  refine ⟨fun ha => KeyRule.narrows_of_apart ha, fun hn size more bound => ?_, ?_⟩
  · exact handed_given hs hc hst column hn size more bound
  · intro hpage hselect hid ns hr h
    refine narrows_of_handed hs hc hst hpage (fun doc => ?_) hr column fun docs => h docs 2 _ 2 Nat.two_pos
    exact Session.shape_finalize hselect hid doc

def freshSession : Session Memory :=
  { pool :=
      { settings := { database := "app" }
        driver := Memory.driver
        state := { supply := ⟨ObjectId.stamped 0, 0⟩ } }
    naming := .ofSettings { database := "app" }
    supply := ⟨ObjectId.stamped 0, 0⟩ }

theorem quiet_freshSession : freshSession.Quiet := ⟨rfl, rfl⟩

theorem reads_freshSession {q : Request} (hq : q.tableName = "t") : freshSession.Reads q ⟨"app", "t"⟩ := by
  intro n
  have hslot : freshSession.settings.select (Session.readRole q) n = .standalone := by
    have hone : freshSession.settings.choices (Session.readRole q) = [.standalone] := rfl
    simp only [Settings.select, hone, List.length_singleton, Nat.mod_one]
    rfl
  rw [hslot]
  refine ⟨.inr ⟨rfl, by decide⟩, ?_⟩
  unfold Session.collection
  rw [hq]
  rfl

def namesBefore (name : String) : Request :=
  { table := some "t", filter := [(.and, [(some "name", .plain (.single "<" (.str name)))])] }

theorem steady_namesBefore (name : String) :
    KeyRule.Steady ⟨false, .native⟩ (freshSession.finalize (namesBefore name)) :=
  KeyRule.steady_of_plain fun e he => by
    obtain rfl := List.mem_singleton.1 he
    exact ⟨_, rfl⟩

theorem chunks_keep_filter_by_age : KeyRule.Apart (namesBefore "c").filter "age" ∧
    ∀ size more bound, AllGiven (stored freshSession ⟨"app", "t"⟩ [.obj [("name", .str "b"), ("age", .int 3)]])
      (namesBefore "c") (handed (stored freshSession ⟨"app", "t"⟩ [.obj [("name", .str "b"), ("age", .int 3)]])
        (namesBefore "c") size (some "age") more bound) := by
  have ha : KeyRule.Apart (namesBefore "c").filter "age" := ⟨by decide, by decide⟩
  have h := chunks_keep_filter (s := stored freshSession ⟨"app", "t"⟩ [.obj [("name", .str "b"), ("age", .int 3)]])
    (quiet_stored quiet_freshSession _ _) (q := namesBefore "c") rfl (steady_namesBefore "c") (some "age")
  exact ⟨ha, h.2.1 (h.1 ha)⟩

/-- **A bound takes the place of a condition on its column**: then a walk hands over documents that its request does not
mean. -/
theorem bound_replaces_condition : ∃ batch ∈ handed (stored freshSession ⟨"app", "t"⟩
      [.obj [("name", .str "a")], .obj [("name", .str "d")]]) (namesBefore "c") 2 (some "name") (fun _ => true) 2,
    .obj [("name", .str "d")] ∈ batch ∧
      ¬ KeyRule.Matches ⟨false, .native⟩ (freshSession.finalize (namesBefore "c")) (.obj [("name", .str "d")]) := by
  obtain ⟨f, hf, ha, hd⟩ : ∃ f, KeyRule.readFilter ⟨false, .native⟩ (freshSession.finalize (namesBefore "c")) = .ok f ∧
      f.holds (.obj [("name", .str "a")]) = true ∧ f.holds (.obj [("name", .str "d")]) = false := ⟨_, rfl, rfl, rfl⟩
  obtain ⟨g, hg, hgd⟩ : ∃ g, KeyRule.readFilter ⟨false, .native⟩ { freshSession.finalize (namesBefore "c") with
      filter := (namesBefore "c").filter.behind "name" (.str "a") } = .ok g ∧
      g.holds (.obj [("name", .str "d")]) = true := ⟨_, rfl, rfl⟩
  have hname : (some "name").getD (freshSession.primaryKeyFor (namesBefore "c")) = "name" := rfl
  obtain ⟨batch, hbatch, hmem⟩ := handed_behind quiet_freshSession (q := namesBefore "c") rfl
    (steady_namesBefore "c") rfl (fun doc => Session.shape_finalize rfl rfl doc) (reads_freshSession rfl) hname hf hg ha
    rfl rfl hd hgd
  refine ⟨batch, hbatch, hmem, ?_⟩
  rintro ⟨f', hf', hd'⟩
  cases hf'.symm.trans hf
  rw [hd] at hd'
  cases hd'

end Walk

end DocQuery
