import DocQuery.Proofs.Comparators
import DocQuery.Proofs.Paths
import DocQuery.Proofs.ValueOrder
import DocQuery.Proofs.WalkFilter

/-!
# A walk goes through everything in order

Where the values of a column rank the documents (`Ranks`), the documents behind a value are those that a bound lets
through, so that batch by batch a walk takes the sorted documents apart (`batches_complete`).  Texts rank documents, and
so do whole numbers as far as the store compares them by size.
-/
namespace DocQuery

/-! ## Batches -/

structure Batched (size : Nat) (batches : List (List Value)) (rows : List Value) : Prop where
  flatten : batches.flatten = rows
  full : ∀ batch ∈ batches.dropLast, batch.length = size
  filled : ∀ batch ∈ batches, batch ≠ [] ∧ batch.length ≤ size

namespace Batched

theorem nil (size : Nat) : Batched size [] [] :=
  ⟨rfl, fun _ hb => absurd hb List.not_mem_nil, fun _ hb => absurd hb List.not_mem_nil⟩

theorem cons {size : Nat} {rows : List Value} {batches : List (List Value)} (hs : 0 < size) (hr : rows ≠ [])
    (h : Batched size batches (rows.drop size)) : Batched size (rows.take size :: batches) rows := by
  have htake : rows.take size ≠ [] := by
    rw [Ne, List.take_eq_nil_iff, not_or]
    exact ⟨Nat.pos_iff_ne_zero.1 hs, hr⟩
  refine ⟨?_, ?_, List.forall_mem_cons.2 ⟨⟨htake, List.length_take_le _ _⟩, h.filled⟩⟩
  · rw [List.flatten_cons, h.flatten, List.take_append_drop]
  · cases batches with
    | nil => exact fun batch hb => by cases hb
    | cons batch rest =>
      rw [List.dropLast_cons_cons, List.forall_mem_cons]
      refine ⟨?_, h.full⟩
      have hmore : rows.drop size ≠ [] := by
        rw [← h.flatten, List.flatten_cons]
        exact List.append_ne_nil_of_left_ne_nil (h.filled batch List.mem_cons_self).1 _
      rw [Ne, List.drop_eq_nil_iff, not_le] at hmore
      rw [List.length_take, Nat.min_eq_left (Nat.le_of_lt hmore)]

end Batched

/-! ## Ranks -/

/-- The values of a column rank documents: each has one of its own, which is no array and not `null`, and the store
compares them as their ranks. -/
structure Ranks {κ : Type} [LinearOrder κ] (docs : List Value) (column : String) (rank : Value → κ)
    (value : κ → Value) : Prop where
  present : ∀ doc ∈ docs, doc.field? column = some (value (rank doc))
  distinct : docs.Pairwise fun a b => rank a ≠ rank b
  single : ∀ k, (value k).isNull = false ∧ (value k).isArr = false
  order : ∀ a ∈ docs, ∀ b ∈ docs, (value (rank a)).order? (value (rank b)) = some (compare (rank a) (rank b))

namespace Ranks

variable {κ : Type} [LinearOrder κ] {docs : List Value} {column : String} {rank : Value → κ} {value : κ → Value}

theorem filter (h : Ranks docs column rank value) (p : Value → Bool) : Ranks (docs.filter p) column rank value :=
  ⟨fun doc hd => h.present doc (List.mem_of_mem_filter hd), h.distinct.sublist List.filter_sublist, h.single,
    fun a ha b hb => h.order a (List.mem_of_mem_filter ha) b (List.mem_of_mem_filter hb)⟩

theorem order_eq (h : Ranks docs column rank value) (hdot : Text.hasChar '.' column = false) {a b : Value}
    (ha : a ∈ docs) (hb : b ∈ docs) : SortKeys.order [(column, 1)] a b = compare (rank a) (rank b) := by
  have hsort : Value.sortOrder (a.path? column) (b.path? column) = compare (rank a) (rank b) := by
    rw [Value.path?_of_field? hdot (h.present a ha), Value.path?_of_field? hdot (h.present b hb), Value.sortOrder,
      h.order a ha b hb, Option.getD_some]
  rw [SortKeys.order, hsort]
  cases compare (rank a) (rank b) with
  | eq => rfl
  | _ => rfl

/-- **Ranked documents are sorted by their ranks, without repetition.** -/
theorem sort_ascending (h : Ranks docs column rank value) (hdot : Text.hasChar '.' column = false) :
    (SortKeys.sort [(column, 1)] docs).Pairwise fun a b => rank a < rank b := by
  have hle : (SortKeys.sort [(column, 1)] docs).Pairwise fun a b => rank a ≤ rank b :=
    SortKeys.sort_pairwise fun a ha b hb _ => h.order_eq hdot ha hb
  have hne := ((SortKeys.sort_perm [(column, 1)] docs).pairwise_iff fun hne => Ne.symm hne).2 h.distinct
  exact (hle.and hne).imp fun h => lt_of_le_of_ne h.1 h.2

theorem sort_filter (h : Ranks docs column rank value) (hdot : Text.hasChar '.' column = false) (p : Value → Bool) :
    SortKeys.sort [(column, 1)] (docs.filter p) = (SortKeys.sort [(column, 1)] docs).filter p := by
  refine List.Perm.eq_of_pairwise (fun a b _ _ hab hba => absurd hab (lt_asymm hba))
    ((h.filter p).sort_ascending hdot) ((h.sort_ascending hdot).sublist List.filter_sublist) ?_
  exact (SortKeys.sort_perm _ _).trans ((SortKeys.sort_perm _ _).filter p).symm

theorem filter_behind {before rest : List Value} {last : Value}
    (h : (before ++ last :: rest).Pairwise fun a b => rank a < rank b) :
    (before ++ last :: rest).filter (fun doc => decide (rank last < rank doc)) = rest := by
  obtain ⟨-, hlast, hcross⟩ := List.pairwise_append.1 h
  have hbefore : before.filter (fun doc => decide (rank last < rank doc)) = [] := by
    rw [List.filter_eq_nil_iff]
    intro doc hd
    have hlt := hcross doc hd last List.mem_cons_self
    simpa using le_of_lt hlt
  have hrest : rest.filter (fun doc => decide (rank last < rank doc)) = rest := by
    rw [List.filter_eq_self]
    intro doc hd
    simpa using (List.pairwise_cons.1 hlast).1 doc hd
  rw [List.filter_append, hbefore, List.filter_cons, hrest]
  simp

end Ranks

/-- The values of a column order documents: they are all texts, or all whole numbers that the store compares by size,
and no two documents have the same. -/
structure OrderedBy (column : String) (docs : List Value) : Prop where
  kind : (∀ doc ∈ docs, ∃ text, doc.field? column = some (.str text)) ∨
    ((∀ doc ∈ docs, ∃ n, doc.field? column = some (.int n)) ∧
      ∀ a ∈ docs, ∀ b ∈ docs, ∀ m n, a.field? column = some (.int m) → b.field? column = some (.int n) →
        (Value.int m).order? (.int n) = some (compare m n))
  distinct : docs.Pairwise fun a b => a.field? column ≠ b.field? column

def Before (column : String) (a b : Value) : Prop := Value.sortOrder (a.field? column) (b.field? column) = .lt

def textAt (column : String) (doc : Value) : String := ((doc.field? column).bind Value.str?).getD ""

def numberAt (column : String) (doc : Value) : Int :=
  match doc.field? column with
  | some (.int n) => n
  | _ => 0

namespace Ranks

variable {docs : List Value} {column : String}

theorem before {κ : Type} [LinearOrder κ] {rank : Value → κ} {value : κ → Value} (h : Ranks docs column rank value)
    {a b : Value} (ha : a ∈ docs) (hb : b ∈ docs) (hlt : rank a < rank b) : Before column a b := by
  unfold Before
  rw [h.present a ha, h.present b hb, Value.sortOrder, h.order a ha b hb, Option.getD_some]
  exact compare_lt_iff_lt.2 hlt

theorem of_texts (h : ∀ doc ∈ docs, ∃ text, doc.field? column = some (.str text))
    (hd : docs.Pairwise fun a b => a.field? column ≠ b.field? column) : Ranks docs column (textAt column) .str := by
  have hp : ∀ doc ∈ docs, doc.field? column = some (.str (textAt column doc)) := fun doc hdoc => by
    obtain ⟨text, htext⟩ := h doc hdoc
    unfold textAt
    rw [htext]
    rfl
  refine ⟨hp, hd.imp_of_mem fun ha hb hne heq => hne ?_, fun _ => ⟨rfl, rfl⟩, fun _ _ _ _ => Value.order?_str _ _⟩
  rw [hp _ ha, hp _ hb, heq]

theorem of_numbers (h : ∀ doc ∈ docs, ∃ n, doc.field? column = some (.int n))
    (ho : ∀ a ∈ docs, ∀ b ∈ docs, ∀ m n, a.field? column = some (.int m) → b.field? column = some (.int n) →
      (Value.int m).order? (.int n) = some (compare m n))
    (hd : docs.Pairwise fun a b => a.field? column ≠ b.field? column) : Ranks docs column (numberAt column) .int := by
  have hp : ∀ doc ∈ docs, doc.field? column = some (.int (numberAt column doc)) := fun doc hdoc => by
    obtain ⟨n, hn⟩ := h doc hdoc
    unfold numberAt
    rw [hn]
  refine ⟨hp, hd.imp_of_mem fun ha hb hne heq => hne ?_, fun _ => ⟨rfl, rfl⟩, fun a ha b hb => ?_⟩
  · exact ho a ha b hb _ _ (hp a ha) (hp b hb)
  · rw [hp _ ha, hp _ hb, heq]

end Ranks

/-! ## Columns to walk by -/

/-- The name of a single field that is stored under it, and that is no primary key. -/
structure IsColumn (column : String) : Prop where
  undotted : Text.hasChar '.' column = false
  unbarred : Text.hasChar '|' column = false
  unjoined : Text.hasChar '&' column = false
  trimmed : Text.trim column = column
  plain : Text.startsWith column "$" = false
  not_key : column ≠ "_id"

namespace IsColumn

variable {r : KeyRule} {column : String}

theorem storedName_eq (h : IsColumn column) (hid : r.convertId = false) : r.storedName column = column := by
  unfold KeyRule.storedName
  rw [hid, if_neg (by simp)]
  exact h.trimmed

theorem storedValue_eq (h : IsColumn column) (v : Value) : r.storedValue column v = v := by
  unfold KeyRule.storedValue
  rw [if_neg fun hk => h.not_key hk.1]

theorem fieldsOf_eq (h : IsColumn column) : KeyRule.fieldsOf column = [column] := by
  simp [KeyRule.fieldsOf, h.unbarred, h.unjoined]

theorem bound_operator : Comparator.ofText? ">" = some .gt := rfl

theorem bound_item (h : IsColumn column) (hid : r.convertId = false) (v : Value) :
    r.item column (.single ">" v) = .ok (.obj [(column, .obj [("$gt", v)])]) := by
  rw [KeyRule.item_bound, h.storedName_eq hid, h.storedValue_eq]

theorem bound_contributes (h : IsColumn column) (hid : r.convertId = false) (scope : Scope) (v : Value) :
    ∃ items, r.contributes scope (.and, some column, .plain (.single ">" v)) = .ok items ∧
      ∀ i ∈ items, Filter.Readable i.2 := by
  have hitem := h.bound_item hid v
  obtain ⟨hread, -⟩ := Comparator.holdsOn_eq bound_operator (by rw [h.storedName_eq hid]; exact h.plain) (by simp) hitem
  refine ⟨[((KeyRule.target .and column).key, .obj [(column, .obj [("$gt", v)])])], ?_, by simpa using hread⟩
  simp only [KeyRule.contributes, KeyRule.contribution]
  rw [KeyRule.plainContribution_some, h.fieldsOf_eq, KeyRule.items, hitem]
  rfl

/-- **The bound of a batch holds on the documents behind its rank.** -/
theorem bound_holdsOn (h : IsColumn column) (hid : r.convertId = false) {κ : Type} [LinearOrder κ] {docs : List Value}
    {rank : Value → κ} {value : κ → Value} (hr : Ranks docs column rank value) {last doc : Value} (hl : last ∈ docs)
    (hd : doc ∈ docs) :
    r.holdsOn (.single ">" (value (rank last))) doc column = decide (rank last < rank doc) := by
  obtain ⟨-, hholds⟩ := Comparator.holdsOn_eq bound_operator (by rw [h.storedName_eq hid]; exact h.plain) (by simp)
    (h.bound_item hid (value (rank last)))
  rw [hholds doc, h.storedName_eq hid, Value.path?_of_field? h.undotted (hr.present doc hd)]
  simp only [Comparator.holds, h.storedValue_eq]
  have hordered : Value.ordered (· == .gt) (some (value (rank doc))) (value (rank last)) =
      ((value (rank doc)).order? (value (rank last))).any (· == .gt) := by
    have hsingle := (hr.single (rank doc)).2
    unfold Value.ordered
    cases hv : value (rank doc) with
    | arr xs =>
      rw [hv] at hsingle
      cases hsingle
    | _ => rfl
  rw [hordered, hr.order doc hd last hl, Option.any_some, Bool.eq_iff_iff, beq_iff_eq, decide_eq_true_iff]
  exact compare_gt_iff_gt

end IsColumn

namespace Walk

/-- A request for whole documents in no order yet: its conditions are known and not on the column. -/
structure IsWhole (q : Request) (column : String) : Prop where
  cache : q.cache = none
  page : q.page = none
  sort : q.sort = []
  selection : q.selectedFields = []
  conditions : ∀ e ∈ q.filter.entries, (∃ c, e.2.2 = .plain c) ∧ e.2.1 ≠ some column

/-- A walk through the documents of a collection that the filter of a request holds on, by a column that ranks them. -/
structure Course {κ : Type} [LinearOrder κ] (s : Session Memory) (q : Request) (column : String) (size : Nat)
    (ns : Namespace) (f : Filter) (rank : Value → κ) (value : κ → Value) : Prop where
  quiet : s.Quiet
  keys : s.keyRule.convertId = false
  whole : IsWhole q column
  named : IsColumn column
  size_pos : 0 < size
  reads : s.Reads (s.finalize q) ns
  filter : s.keyRule.readFilter (s.finalize q) = .ok f
  ranks : Ranks (s.pool.state.store.documents ns) column rank value

theorem rows_eq_take {r : KeyRule} {q : Request} {f : Filter} {docs : List Value} {column : String} {size : Nat}
    (hs : 0 < size) (hskip : q.skip = some 0) (hlimit : q.limitValue = size)
    (hsort : (q.sort.map fun e => (r.storedName e.1, e.2)) = [(column, 1)]) (hshape : ∀ doc, r.shape q doc = doc) :
    r.rows q f docs = (SortKeys.sort [(column, 1)] (docs.filter f.holds)).take size := by
  have hid : r.shape q = id := funext hshape
  unfold KeyRule.rows window
  rw [hid, List.map_id, hskip, hlimit, hsort]
  simp only [Option.getD_some, List.drop_zero, if_pos hs]

namespace Course

variable {κ : Type} [LinearOrder κ] {s : Session Memory} {q : Request} {column : String} {size : Nat} {ns : Namespace}
  {f : Filter} {rank : Value → κ} {value : κ → Value}

theorem apart (h : Course s q column size ns f rank value) : KeyRule.Apart q.filter column :=
  ⟨h.named.unbarred, fun e he heq => (h.whole.conditions e he).2 (congrArg Prod.snd heq)⟩

theorem steady (h : Course s q column size ns f rank value) : s.keyRule.Steady (s.finalize q) :=
  KeyRule.steady_of_plain fun e he => (h.whole.conditions e he).1

theorem rows_batch (h : Course s q column size ns f rank value) (w : Where (Condition Scope)) (g : Filter)
    (docs : List Value) : s.keyRule.rows (s.finalize (firstBatch { q with filter := w } size column)) g docs =
      (SortKeys.sort [(column, 1)] (docs.filter g.holds)).take size := by
  obtain ⟨hskip, hlimit⟩ := Session.window_finalize (s := s) (q := firstBatch { q with filter := w } size column)
    h.whole.page
  refine rows_eq_take h.size_pos hskip hlimit ?_ fun doc => Session.shape_finalize h.whole.selection h.keys doc
  have hsort : (s.finalize (firstBatch { q with filter := w } size column)).sort = Keyed.set q.sort column 1 := rfl
  rw [hsort, h.whole.sort]
  simp [Keyed.set, h.named.storedName_eq h.keys]

theorem nextBatch_eq (q : Request) (size : Nat) (column : String) (last : Value) :
    nextBatch q size column last = firstBatch { q with filter := q.filter.behind column last } size column := rfl

theorem mem_sorted (_ : Course s q column size ns f rank value) {doc : Value} :
    doc ∈ SortKeys.sort [(column, 1)] ((s.pool.state.store.documents ns).filter f.holds) ↔
      doc ∈ s.pool.state.store.documents ns ∧ f.holds doc = true := by
  rw [SortKeys.mem_sort, List.mem_filter]

/-- **A bound at one of the sorted documents reads those that follow it.** -/
theorem read_behind (h : Course s q column size ns f rank value) {before rest : List Value} {last : Value}
    (hsplit : SortKeys.sort [(column, 1)] ((s.pool.state.store.documents ns).filter f.holds) = before ++ last :: rest)
    {β : Type} {w : Walk Memory β} (hw : Session.Carries s w.query.session) : ∃ t, Session.Carries s t ∧
      (queried Query.select).on (w.withRequest (nextBatch q size column (value (rank last)))) =
        (.ok (rest.take size), { w with query := ⟨t, s.finalize (nextBatch q size column (value (rank last)))⟩ }) := by
  have hlast : last ∈ s.pool.state.store.documents ns := by
    refine (h.mem_sorted.1 ?_).1
    rw [hsplit]
    exact List.mem_append_right _ List.mem_cons_self
  obtain ⟨g, hg⟩ := KeyRule.readable_behind (q := s.finalize q) (v := value (rank last)) h.apart h.filter
    (h.named.bound_contributes h.keys _ _)
  have hreads : s.Reads (s.finalize (nextBatch q size column (value (rank last)))) ns := h.reads
  obtain ⟨t, ht, hok⟩ := queried_select_of_reads h.quiet
    (w := w.withRequest (nextBatch q size column (value (rank last)))) hw h.whole.cache rfl hreads
    ((readFilter_nextBatch h.steady size column _).trans hg)
  have hfilter : (s.pool.state.store.documents ns).filter g.holds =
      ((s.pool.state.store.documents ns).filter f.holds).filter (fun doc => decide (rank last < rank doc)) := by
    rw [List.filter_filter]
    refine List.filter_congr fun doc hd => ?_
    have hiff := KeyRule.holds_behind (q := s.finalize q) h.apart h.filter hg doc
    rw [h.named.fieldsOf_eq, List.forall_mem_singleton, h.named.bound_holdsOn h.keys h.ranks hlast hd] at hiff
    rw [Bool.eq_iff_iff, hiff, Bool.and_eq_true, and_comm]
  have hsorted := (h.ranks.filter f.holds).sort_filter h.named.undotted fun doc => decide (rank last < rank doc)
  rw [← hfilter, hsplit, Ranks.filter_behind] at hsorted
  · have hrows := h.rows_batch (q.filter.behind column (value (rank last))) g (s.pool.state.store.documents ns)
    rw [← nextBatch_eq, hsorted] at hrows
    refine ⟨t, ht, hok.trans ?_⟩
    rw [← hrows]
    rfl
  · rw [← hsplit]
    exact (h.ranks.filter f.holds).sort_ascending h.named.undotted

/-- **A walk that stands before some of the sorted documents hands them over batch by batch and ends.** -/
theorem batches_complete (h : Course s q column size ns f rank value) :
    ∀ (n : Nat) (before rows : List Value) (w : Walk Memory (List (List Value))),
      SortKeys.sort [(column, 1)] ((s.pool.state.store.documents ns).filter f.holds) = before ++ rows →
      rows.length < n → Session.Carries s w.query.session →
      ∃ w' handed, (batches (keeping fun _ => true) q size column n (rows.take size)).on w = (.ok (some true), w') ∧
        w'.memory = w.memory ++ handed ∧ Batched size handed rows
  | 0, _, _, _, _, hn, _ => absurd hn (Nat.not_lt_zero _)
  | n + 1, before, rows, w, hsplit, hn, hw => by
    by_cases hr : rows = []
    · subst hr
      rw [List.take_nil, batches_nil]
      exact ⟨_, [], rfl, (List.append_nil _).symm, Batched.nil size⟩
    · have htake : rows.take size ≠ [] := by
        rw [Ne, List.take_eq_nil_iff, not_or]
        exact ⟨Nat.pos_iff_ne_zero.1 h.size_pos, hr⟩
      -- the bound of the next batch is the rank of the last row of this one
      obtain ⟨init, last, hinit⟩ : ∃ init last, rows.take size = init ++ [last] :=
        ⟨_, _, (List.dropLast_concat_getLast htake).symm⟩
      have hrows : rows = init ++ last :: rows.drop size := by
        rw [← List.singleton_append, ← List.append_assoc, ← hinit, List.take_append_drop]
      have hlast : last ∈ s.pool.state.store.documents ns := by
        refine (h.mem_sorted.1 ?_).1
        rw [hsplit, hrows]
        simp
      have hlastOf : lastOf column (rows.take size) = value (rank last) := by
        rw [lastOf, hinit, List.getLast?_concat, Option.bind_some, h.ranks.present last hlast]
        rfl
      have hsplit' : SortKeys.sort [(column, 1)] ((s.pool.state.store.documents ns).filter f.holds) =
          (before ++ init) ++ last :: rows.drop size := by
        rw [hsplit, List.append_assoc, ← hrows]
      obtain ⟨t, ht, hnext⟩ := h.read_behind hsplit'
        (w := { w with memory := (keeping (fun _ => true) (rows.take size) w.memory).1 }) hw
      have hshort : (rows.drop size).length < n := by
        have hpos := h.size_pos
        have hlen := List.length_pos_iff.2 hr
        rw [List.length_drop]
        omega
      obtain ⟨w', handed, hon, hmemory, hbatched⟩ := batches_complete h n (before ++ init ++ [last]) (rows.drop size)
        ⟨⟨t, s.finalize (nextBatch q size column (value (rank last)))⟩,
          (keeping (fun _ => true) (rows.take size) w.memory).1⟩ (by rw [hsplit']; simp) hshort ht
      refine ⟨w', rows.take size :: handed, ?_, ?_, hbatched.cons h.size_pos hr⟩
      · rw [batches_next n htake rfl hlastOf (h.ranks.single _).1, Run.on_bind_ok hnext]
        exact hon
      · rw [hmemory]
        simp [keeping]

/-- **A walk hands over all documents that its request means, sorted, batch by batch.** -/
theorem chunks_complete (h : Course s q column size ns f rank value) {bound : Nat}
    (hb : ((s.pool.state.store.documents ns).filter f.holds).length < bound) :
    ∃ w, (chunks (keeping fun _ => true) size (some column) bound).on ⟨⟨s, q⟩, []⟩ = (.ok (some true), w) ∧
      Batched size w.memory (SortKeys.sort [(column, 1)] ((s.pool.state.store.documents ns).filter f.holds)) := by
  have hreads : s.Reads (s.finalize (firstBatch q size column)) ns := h.reads
  obtain ⟨t, ht, hfirst⟩ := queried_select_of_reads h.quiet
    (w := ⟨⟨s, firstBatch q size column⟩, ([] : List (List Value))⟩) (Session.Carries.refl s) h.whole.cache rfl hreads
    ((readFilter_firstBatch h.steady size column).trans h.filter)
  have hrows := h.rows_batch q.filter f (s.pool.state.store.documents ns)
  have hlen := (SortKeys.sort_perm [(column, 1)] ((s.pool.state.store.documents ns).filter f.holds)).length_eq
  obtain ⟨w, handed, hon, hmemory, hbatched⟩ := h.batches_complete bound [] _
    ⟨⟨t, s.finalize (firstBatch q size column)⟩, []⟩ (List.nil_append _).symm (by rw [hlen]; exact hb) ht
  refine ⟨w, ?_, by rw [hmemory]; exact hbatched⟩
  rw [chunks_on (Nat.pos_iff_ne_zero.1 h.size_pos), Option.getD_some, Run.on_bind_ok hfirst]
  rw [← hrows] at hon
  exact hon

theorem sorted_before (h : Course s q column size ns f rank value) :
    (SortKeys.sort [(column, 1)] ((s.pool.state.store.documents ns).filter f.holds)).Pairwise (Before column) := by
  refine ((h.ranks.filter f.holds).sort_ascending h.named.undotted).imp_of_mem fun ha hb hlt => ?_
  exact h.ranks.before (h.mem_sorted.1 ha).1 (h.mem_sorted.1 hb).1 hlt

end Course

/-- **A walk with a visitor that always wants more is complete and ordered**: it hands over exactly the documents that
the filter of its request holds on, each before the next in the order of the column, all batches but the last one full
and none of them empty. -/
theorem chunks_walk_in_order {s : Session Memory} {q : Request} {column : String} {size bound : Nat} {ns : Namespace}
    {f : Filter} (hs : s.Quiet) (hid : s.keyRule.convertId = false) (hcol : IsColumn column) (hq : IsWhole q column)
    (hsize : 0 < size) (hr : s.Reads (s.finalize q) ns) (hf : s.keyRule.readFilter (s.finalize q) = .ok f)
    (hd : OrderedBy column (s.pool.state.store.documents ns))
    (hb : ((s.pool.state.store.documents ns).filter f.holds).length < bound) :
    ∃ w rows, (chunks (keeping fun _ => true) size (some column) bound).on ⟨⟨s, q⟩, []⟩ = (.ok (some true), w) ∧
      rows.Perm ((s.pool.state.store.documents ns).filter f.holds) ∧ rows.Pairwise (Before column) ∧
      Batched size w.memory rows := by
  have hperm := SortKeys.sort_perm [(column, 1)] ((s.pool.state.store.documents ns).filter f.holds)
  rcases hd.kind with htexts | ⟨hnumbers, horder⟩
  · have h : Course s q column size ns f (textAt column) .str :=
      ⟨hs, hid, hq, hcol, hsize, hr, hf, Ranks.of_texts htexts hd.distinct⟩
    obtain ⟨w, hon, hbatched⟩ := h.chunks_complete hb
    exact ⟨w, _, hon, hperm, h.sorted_before, hbatched⟩
  · have h : Course s q column size ns f (numberAt column) .int :=
      ⟨hs, hid, hq, hcol, hsize, hr, hf, Ranks.of_numbers hnumbers horder hd.distinct⟩
    obtain ⟨w, hon, hbatched⟩ := h.chunks_complete hb
    exact ⟨w, _, hon, hperm, h.sorted_before, hbatched⟩

def keptNames : List Value :=
  [.obj [("name", .str "c"), ("kept", .str "yes")], .obj [("name", .str "a"), ("kept", .str "yes")],
    .obj [("name", .str "d"), ("kept", .str "no")], .obj [("name", .str "b"), ("kept", .str "yes")]]

def keptOnly : Request := { table := some "t", filter := [(.and, [(some "kept", .plain (.single "=" (.str "yes")))])] }

theorem orderedBy_keptNames : OrderedBy "name" keptNames := by
  refine ⟨.inl ?_, ?_⟩
  · simp only [keptNames, List.forall_mem_cons, List.not_mem_nil, false_imp_iff, implies_true, and_true]
    exact ⟨⟨_, rfl⟩, ⟨_, rfl⟩, ⟨_, rfl⟩, ⟨_, rfl⟩⟩
  · simp [keptNames, Value.field?, Value.fields?, Keyed.get?]

theorem chunks_walk_in_order_kept :
    ∃ f, KeyRule.readFilter ⟨false, .native⟩ (freshSession.finalize keptOnly) = .ok f ∧
    ∃ w rows, (chunks (keeping fun _ => true) 2 (some "name") 9).on
        ⟨⟨stored freshSession ⟨"app", "t"⟩ keptNames, keptOnly⟩, []⟩ = (.ok (some true), w) ∧
      rows.Perm (keptNames.filter f.holds) ∧ rows.Pairwise (Before "name") ∧ Batched 2 w.memory rows := by
  have hcol : IsColumn "name" := ⟨by decide, by decide, by decide, by decide, by decide, by decide⟩
  have hq : IsWhole keptOnly "name" := by
    refine ⟨rfl, rfl, rfl, rfl, fun e he => ?_⟩
    obtain rfl := List.mem_singleton.1 he
    exact ⟨⟨_, rfl⟩, by decide⟩
  have hr : (stored freshSession ⟨"app", "t"⟩ keptNames).Reads (freshSession.finalize keptOnly) ⟨"app", "t"⟩ :=
    reads_freshSession rfl
  obtain ⟨f, hf⟩ : ∃ f, KeyRule.readFilter ⟨false, .native⟩ (freshSession.finalize keptOnly) = .ok f := ⟨_, rfl⟩
  have hdocs := documents_stored freshSession ⟨"app", "t"⟩ keptNames
  have hd : OrderedBy "name"
      ((stored freshSession ⟨"app", "t"⟩ keptNames).pool.state.store.documents ⟨"app", "t"⟩) := by
    rw [hdocs]
    exact orderedBy_keptNames
  have hb : (((stored freshSession ⟨"app", "t"⟩ keptNames).pool.state.store.documents
      ⟨"app", "t"⟩).filter f.holds).length < 9 := by
    rw [hdocs]
    exact Nat.lt_of_le_of_lt (List.length_filter_le _ _) (by decide)
  obtain ⟨w, rows, hon, hperm, hrest⟩ := chunks_walk_in_order (quiet_stored quiet_freshSession _ _) rfl hcol hq
    Nat.two_pos hr hf hd hb
  rw [hdocs] at hperm
  exact ⟨f, hf, w, rows, hon, hperm, hrest⟩

end Walk

end DocQuery
