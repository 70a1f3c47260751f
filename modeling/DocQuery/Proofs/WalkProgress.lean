import DocQuery.Proofs.Projection
import DocQuery.Proofs.WalkCache
import DocQuery.Proofs.WalkOrder

/-!
# Walks get on

Every batch of a walk lies behind the one before, if its rows ascend by the column and the bounds are met by what they
show (`Climbs`).  Such a walk hands over no document twice, and asks no more than once beyond the number of documents
(`Climbs.chunks`).  Distinct texts in a column that comes first in the order make it so, unless the request names a key
to cache its results under: then all batches are the first one (`chunks_advance`).
-/
namespace DocQuery

namespace Where

theorem mem_behind (w : Where (Condition Scope)) (column : String) (last : Value) :
    (.and, some column, .plain (.single ">" last)) ∈ (w.behind column last).entries := by
  have hgroup : Keyed.get? (w.behind column last) .and =
      some (Keyed.set ((Keyed.get? w .and).getD []) (some column) (.plain (.single ">" last))) :=
    Keyed.get?_set_self _ _ _
  exact List.mem_flatMap.2 ⟨_, Keyed.mem_of_get? hgroup, List.mem_map.2
    ⟨_, Keyed.mem_of_get? (Keyed.get?_set_self _ _ _), rfl⟩⟩

end Where

/-- **A bound among the conditions of a request holds on what its filter holds on.** -/
theorem KeyRule.holdsOn_of_bound {r : KeyRule} {q : Request} {column : String} {last : Value}
    (hs : Text.hasChar '|' column = false) (hmem : (.and, some column, .plain (.single ">" last)) ∈ q.filter.entries)
    {f : Filter} (hf : r.readFilter q = .ok f) {doc : Value} (hd : f.holds doc = true) :
    ∀ name ∈ KeyRule.fieldsOf column, r.holdsOn (.single ">" last) doc name = true := by
  obtain ⟨before, rest, hentries⟩ := List.append_of_mem hmem
  obtain ⟨items, hitems, -⟩ := (readable_iff r q).1 ⟨f, hf⟩ _ hmem
  have hall := (holds_iff_items hf doc).1 hd .and
  rw [hentries, itemsOf_append, itemsOf_cons hitems, filed_append, filed_append, List.map_append, List.map_append,
    filed_contributes (isNamed_bound column last) hitems, if_pos (targetOf_bound hs)] at hall
  intro name hname
  have hin : r.holdsOn (.single ">" last) doc name ∈ r.answers doc (.and, some column, .plain (.single ">" last)) :=
    List.mem_map.2 ⟨name, hname, rfl⟩
  exact hall _ (List.mem_append_right _ (List.mem_append_left _ hin))

namespace Walk

open Session (Carries)

def Shown (s : Session Memory) (q : Request) (column : String) (docs : List Value) (last : Value) : Prop :=
  last.isNull = false ∧ ∃ doc ∈ docs, (s.keyRule.shape (s.finalize q) doc).field? column = some last

/-- The requests that a walk makes for its batches out of some documents. -/
def BatchOf (s : Session Memory) (q : Request) (size : Nat) (column : String) (docs : List Value) : Request → Prop :=
  Asks q size column (Shown s q column docs)

/-- Batches of a walk that share a key are the same, or nothing of them stays live. -/
def Renewed (s : Session Memory) (q : Request) (size : Nat) (column : String) (docs : List Value) : Prop :=
  Told s docs (BatchOf s q size column docs) ∨ ∀ d, q.cache = some d → d.lifetime = some 0

/-- A walk climbs by a rank: its order goes by the rank, and the bound after a document means a higher rank. -/
structure Climbs {κ : Type} [LinearOrder κ] (s : Session Memory) (q : Request) (size : Nat) (column : String)
    (ns : Namespace) (rank : Value → κ) : Prop where
  quiet : s.Quiet
  reads : ReadsOnly s (s.finalize q) ns
  distinct : (s.pool.state.store.documents ns).Pairwise fun a b => rank a ≠ rank b
  order : ∀ a ∈ s.pool.state.store.documents ns, ∀ b ∈ s.pool.state.store.documents ns, rank a ≠ rank b →
    SortKeys.order ((Keyed.set q.sort column 1).map fun e => (s.keyRule.storedName e.1, e.2)) a b =
      compare (rank a) (rank b)
  bound : ∀ doc ∈ s.pool.state.store.documents ns, ∀ last, last.isNull = false →
    (s.keyRule.shape (s.finalize q) doc).field? column = some last → ∀ doc' ∈ s.pool.state.store.documents ns, ∀ f,
      s.keyRule.readFilter (s.finalize (nextBatch q size column last)) = .ok f → f.holds doc' = true →
        rank doc < rank doc'
  renewed : Renewed s q size column (s.pool.state.store.documents ns)

def ahead {κ : Type} [LinearOrder κ] (docs : List Value) (rank : Value → κ) (b : WithBot κ) : List Value :=
  docs.filter fun doc => decide (b < (rank doc : WithBot κ))

/-- Documents of higher and higher rank have been handed over on top of what there was. -/
def Adds {κ : Type} [LinearOrder κ] (shape : Value → Value) (docs : List Value) (rank : Value → κ) (b : WithBot κ)
    (log log' : List (List Value)) : Prop :=
  ∃ given : List Value, log'.flatten = log.flatten ++ given.map shape ∧ given.Pairwise (rank · < rank ·) ∧
    ∀ doc ∈ given, doc ∈ ahead docs rank b

section

variable {κ : Type} [LinearOrder κ] {docs : List Value} {rank : Value → κ} {b : WithBot κ}

theorem mem_ahead {doc : Value} : doc ∈ ahead docs rank b ↔ doc ∈ docs ∧ b < (rank doc : WithBot κ) := by
  unfold ahead
  rw [List.mem_filter, decide_eq_true_iff]

theorem length_ahead_lt {doc : Value} (hd : doc ∈ ahead docs rank b) :
    (ahead docs rank (rank doc : WithBot κ)).length < (ahead docs rank b).length := by
  have hsub : ahead docs rank (rank doc : WithBot κ) =
      (ahead docs rank b).filter fun doc' => decide ((rank doc : WithBot κ) < (rank doc' : WithBot κ)) := by
    unfold ahead
    rw [List.filter_filter]
    refine List.filter_congr fun doc' _ => ?_
    rw [Bool.eq_iff_iff, Bool.and_eq_true, decide_eq_true_iff, decide_eq_true_iff]
    exact ⟨fun h => ⟨h, (mem_ahead.1 hd).2.trans h⟩, fun h => h.1⟩
  rw [hsub, List.length_filter_lt_length_iff_exists]
  exact ⟨doc, hd, by simp⟩

theorem Adds.nil (shape : Value → Value) (docs : List Value) (rank : Value → κ) (b : WithBot κ)
    (log : List (List Value)) : Adds shape docs rank b log log :=
  ⟨[], by simp, List.Pairwise.nil, fun _ h => by cases h⟩

theorem Adds.cons {shape : Value → Value} {log log' : List (List Value)} {init : List Value} {last : Value}
    (hasc : (init ++ [last]).Pairwise (rank · < rank ·)) (hin : ∀ doc ∈ init ++ [last], doc ∈ ahead docs rank b)
    (h : Adds shape docs rank (rank last : WithBot κ) (log ++ [(init ++ [last]).map shape]) log') :
    Adds shape docs rank b log log' := by
  obtain ⟨given, hlog, hgiven, hahead⟩ := h
  refine ⟨(init ++ [last]) ++ given, ?_, ?_, ?_⟩
  · rw [hlog, List.flatten_append, List.flatten_singleton, List.append_assoc, ← List.map_append]
  · refine List.pairwise_append.2 ⟨hasc, hgiven, fun a ha a' ha' => ?_⟩
    have hbehind : rank last < rank a' := WithBot.coe_lt_coe.1 (mem_ahead.1 (hahead a' ha')).2
    rcases List.mem_append.1 ha with ha | ha
    · exact ((List.pairwise_append.1 hasc).2.2 a ha last (List.mem_singleton.2 rfl)).trans hbehind
    · rw [List.mem_singleton.1 ha]
      exact hbehind
  · intro doc hdoc
    rcases List.mem_append.1 hdoc with hdoc | hdoc
    · exact hin doc hdoc
    · obtain ⟨hmem, hlt⟩ := mem_ahead.1 (hahead doc hdoc)
      exact mem_ahead.2 ⟨hmem, ((mem_ahead.1 (hin last (by simp))).2).trans hlt⟩

end

namespace Climbs

variable {κ : Type} [LinearOrder κ] {s : Session Memory} {q : Request} {size : Nat} {column : String} {ns : Namespace}
  {rank : Value → κ}

/-- **The rows of a batch are those of documents that its filter holds on, of higher and higher rank.** -/
theorem ascending (h : Climbs s q size column ns rank) {bounds : Value → Prop} {asked : Request}
    (ha : Asks q size column bounds asked) {rows : List Value}
    (hg : Gives s (s.pool.state.store.documents ns) asked rows) : ∃ (given : List Value) (f : Filter),
      s.keyRule.readFilter (s.finalize asked) = .ok f ∧ rows = given.map (s.keyRule.shape (s.finalize q)) ∧
        given.Pairwise (rank · < rank ·) ∧
          ∀ doc ∈ given, doc ∈ s.pool.state.store.documents ns ∧ f.holds doc = true := by
  obtain ⟨f, hf, rfl⟩ := hg
  have hsub : ((s.pool.state.store.documents ns).filter f.holds).Sublist (s.pool.state.store.documents ns) :=
    List.filter_sublist
  have horder : ∀ a ∈ (s.pool.state.store.documents ns).filter f.holds,
      ∀ b ∈ (s.pool.state.store.documents ns).filter f.holds, rank a ≠ rank b → _ = compare (rank a) (rank b) :=
    fun a ha b hb => h.order a (hsub.subset ha) b (hsub.subset hb)
  have hle := SortKeys.sort_pairwise horder
  have hne := ((SortKeys.sort_perm ((Keyed.set q.sort column 1).map fun e => (s.keyRule.storedName e.1, e.2))
    ((s.pool.state.store.documents ns).filter f.holds)).pairwise_iff fun hne => Ne.symm hne).2 (h.distinct.sublist hsub)
  have hlt := (hle.and hne).imp fun h => lt_of_le_of_ne h.1 h.2
  have hwindow := fun limit skip => window_sublist limit skip
    (SortKeys.sort ((Keyed.set q.sort column 1).map fun e => (s.keyRule.storedName e.1, e.2))
      ((s.pool.state.store.documents ns).filter f.holds))
  have hshape : s.keyRule.shape (s.finalize asked) = s.keyRule.shape (s.finalize q) := by cases ha <;> rfl
  have hsort : (s.finalize asked).sort = Keyed.set q.sort column 1 := by cases ha <;> rfl
  refine ⟨_, f, hf, by rw [KeyRule.rows, hshape, hsort], hlt.sublist (hwindow _ _), fun doc hd => ?_⟩
  exact List.mem_filter.1 (SortKeys.mem_sort.1 ((hwindow _ _).subset hd))

/-- **A batch of a climbing walk** fails, or gives documents that its filter holds on, of higher and higher rank, in one
more trip at most. -/
theorem step (h : Climbs s q size column ns rank) {asked : Request} {w : Walk Memory (List (List Value))}
    (hw : Stands s (s.pool.state.store.documents ns) (BatchOf s q size column (s.pool.state.store.documents ns))
      w.query.session)
    (ha : BatchOf s q size column (s.pool.state.store.documents ns) asked) :
    ∃ r u, (queried Query.select).on (w.withRequest asked) = (r, { w with query := ⟨u, s.finalize asked⟩ }) ∧
      Stands s (s.pool.state.store.documents ns) (BatchOf s q size column (s.pool.state.store.documents ns)) u ∧
      u.trips ≤ w.query.session.trips + 1 ∧
      ∀ rows, r = .ok rows → ∃ (given : List Value) (f : Filter), s.keyRule.readFilter (s.finalize asked) = .ok f ∧
        rows = given.map (s.keyRule.shape (s.finalize q)) ∧ given.Pairwise (rank · < rank ·) ∧
          ∀ doc ∈ given, doc ∈ s.pool.state.store.documents ns ∧ f.holds doc = true := by
  have hreads : ReadsOnly s (s.finalize asked) ns := by cases ha <;> exact h.reads
  have hbrief : Told s (s.pool.state.store.documents ns) (BatchOf s q size column (s.pool.state.store.documents ns)) ∨
      ∀ d, asked.cache = some d → d.lifetime = some 0 := by cases ha <;> exact h.renewed
  obtain ⟨r, u, hselect, hu, hgives⟩ := hw.select h.quiet hreads rfl ha hbrief
  have htrips := Session.raises_select (s.finalize asked) w.query.session
  have hon := queried_select_eq (w := w.withRequest asked) hw.terms
  simp only [withRequest, hselect] at hon
  rw [hselect] at htrips
  exact ⟨r, u, hon, hu, htrips, fun rows hr => h.ascending ha (hgives rows hr)⟩

theorem shown_of_lastOf {shape : Value → Value} {init : List Value} {last : Value}
    (hnull : (lastOf column ((init ++ [last]).map shape)).isNull = false) :
    (shape last).field? column = some (lastOf column ((init ++ [last]).map shape)) := by
  rw [lastOf, List.map_append, List.map_singleton, List.getLast?_concat, Option.bind_some] at hnull ⊢
  cases hv : (shape last).field? column with
  | none =>
    rw [hv] at hnull
    cases hnull
  | some v => rfl

/-- **A walk that stands before the documents of a higher rank climbs on**: it ends, asks for each of them once at most,
and hands over no others and none twice. -/
theorem batches (h : Climbs s q size column ns rank) : ∀ (n : Nat) (b : WithBot κ) (given : List Value)
    (w : Walk Memory (List (List Value))),
    Stands s (s.pool.state.store.documents ns) (BatchOf s q size column (s.pool.state.store.documents ns))
      w.query.session →
    given.Pairwise (rank · < rank ·) → (∀ doc ∈ given, doc ∈ ahead (s.pool.state.store.documents ns) rank b) →
    (ahead (s.pool.state.store.documents ns) rank b).length < n →
    ∃ r w', (Walk.batches (keeping fun _ => true) q size column n (given.map (s.keyRule.shape (s.finalize q)))).on w =
        (r, w') ∧ r ≠ .ok none ∧
      w'.query.session.trips ≤ w.query.session.trips + (ahead (s.pool.state.store.documents ns) rank b).length ∧
      Adds (s.keyRule.shape (s.finalize q)) (s.pool.state.store.documents ns) rank b w.memory w'.memory
  | 0, _, _, _, _, _, _, hn => absurd hn (Nat.not_lt_zero _)
  | n + 1, b, given, w, hw, hasc, hin, hn => by
    by_cases hgiven : given = []
    · subst hgiven
      exact ⟨_, _, batches_nil n, by simp, Nat.le_add_right _ _, Adds.nil _ _ _ _ _⟩
    · obtain ⟨init, last, rfl⟩ : ∃ init last, given = init ++ [last] :=
        ⟨_, _, (List.dropLast_concat_getLast hgiven).symm⟩
      have hr : (init ++ [last]).map (s.keyRule.shape (s.finalize q)) ≠ [] := by simp
      have hlast : last ∈ ahead (s.pool.state.store.documents ns) rank b := hin last (by simp)
      -- with every batch fewer documents lie ahead, so that neither the fuel nor the trips run out
      have hfewer := length_ahead_lt hlast
      have hlog : Adds (s.keyRule.shape (s.finalize q)) (s.pool.state.store.documents ns) rank b w.memory
          (w.memory ++ [(init ++ [last]).map (s.keyRule.shape (s.finalize q))]) :=
        Adds.cons hasc hin (Adds.nil _ _ _ _ _)
      cases hnull : (lastOf column ((init ++ [last]).map (s.keyRule.shape (s.finalize q)))).isNull with
      | true =>
        exact ⟨_, _, batches_end n hr rfl (Value.eq_null_of_isNull hnull), by simp, Nat.le_add_right _ _, hlog⟩
      | false =>
        have hshown := shown_of_lastOf hnull
        have hdoc := (mem_ahead.1 hlast).1
        have hon : (Walk.batches (keeping fun _ => true) q size column (n + 1)
            ((init ++ [last]).map (s.keyRule.shape (s.finalize q)))).on w = _ := batches_next n hr rfl rfl hnull
        obtain ⟨r, u, hstep, hu, htrips, hgives⟩ := h.step
          (w := { w with memory := w.memory ++ [(init ++ [last]).map (s.keyRule.shape (s.finalize q))] }) hw
          (.next _ ⟨hnull, last, hdoc, hshown⟩)
        simp only at htrips
        cases r with
        | error e => exact ⟨_, _, hon.trans (Run.on_bind_error hstep), by simp, htrips.trans (by omega), hlog⟩
        | ok rows =>
          obtain ⟨given', f, hf, rfl, hasc', hin'⟩ := hgives rows rfl
          have hahead : ∀ doc ∈ given', doc ∈ ahead (s.pool.state.store.documents ns) rank (rank last : WithBot κ) :=
            fun doc hd => mem_ahead.2 ⟨(hin' doc hd).1, WithBot.coe_lt_coe.2
              (h.bound last hdoc _ hnull hshown doc (hin' doc hd).1 f hf (hin' doc hd).2)⟩
          obtain ⟨r, w', hrest, hend, htrips', hadds⟩ := batches h n _ given'
            ⟨⟨u, _⟩, w.memory ++ [(init ++ [last]).map (s.keyRule.shape (s.finalize q))]⟩ hu hasc' hahead (by omega)
          simp only at htrips'
          exact ⟨r, w', hon.trans ((Run.on_bind_ok hstep).trans hrest), hend, by omega, hadds.cons hasc hin⟩

/-- **A walk that climbs hands over no document twice**, and asks no more than once beyond the number of documents. -/
theorem chunks (h : Climbs s q size column ns rank) (hsize : 0 < size)
    (hs : Stands s (s.pool.state.store.documents ns) (BatchOf s q size column (s.pool.state.store.documents ns)) s)
    {bound : Nat} (hbound : (s.pool.state.store.documents ns).length < bound) :
    ∃ r w, (Walk.chunks (keeping fun _ => true) size (some column) bound).on ⟨⟨s, q⟩, []⟩ = (r, w) ∧ r ≠ .ok none ∧
      w.query.session.trips ≤ s.trips + (s.pool.state.store.documents ns).length + 1 ∧
      ∃ given : List Value, w.memory.flatten = given.map (s.keyRule.shape (s.finalize q)) ∧
        given.Pairwise (rank · < rank ·) ∧ given.Subperm (s.pool.state.store.documents ns) := by
  have hall : ahead (s.pool.state.store.documents ns) rank ⊥ = s.pool.state.store.documents ns := by
    unfold ahead
    rw [List.filter_eq_self]
    exact fun doc _ => decide_eq_true (WithBot.bot_lt_coe _)
  have hon : (Walk.chunks (keeping fun _ => true) size (some column) bound).on ⟨⟨s, q⟩, []⟩ = _ :=
    chunks_on (Nat.pos_iff_ne_zero.1 hsize) s q [] (some column) bound
  rw [Option.getD_some] at hon
  obtain ⟨r, u, hstep, hu, htrips, hgives⟩ := h.step (w := ⟨⟨s, q⟩, []⟩) hs .first
  simp only at htrips
  cases r with
  | error e =>
    exact ⟨_, _, hon.trans (Run.on_bind_error hstep), by simp, htrips.trans (by omega), [], rfl, List.Pairwise.nil,
      List.nil_subperm⟩
  | ok rows =>
    obtain ⟨given, f, -, rfl, hasc, hin⟩ := hgives rows rfl
    obtain ⟨r, w, hbatches, hend, htrips', given', hlog, hasc', hin'⟩ := h.batches bound ⊥ given ⟨⟨u, _⟩, []⟩ hu hasc
      (fun doc hd => by rw [hall]; exact (hin doc hd).1) (by rw [hall]; exact hbound)
    rw [hall] at htrips' hin'
    simp only at htrips'
    refine ⟨r, w, hon.trans ((Run.on_bind_ok hstep).trans hbatches), hend, by omega, given', hlog, hasc', ?_⟩
    exact List.subperm_of_subset (hasc'.imp fun hlt heq => absurd (congrArg rank heq) hlt.ne) hin'

end Climbs

/-! ## Columns of texts -/

/-- A walk by a column of distinct texts that comes first in its order, and that its request does not compute. -/
structure TextWalk (s : Session Memory) (q : Request) (column : String) (ns : Namespace) : Prop where
  quiet : s.Quiet
  reads : ReadsOnly s (s.finalize q) ns
  undotted : Text.hasChar '.' column = false
  unbarred : Text.hasChar '|' column = false
  unjoined : Text.hasChar '&' column = false
  stored : s.keyRule.storedName column = column
  order : ∀ name, (Keyed.keys q.sort).head? = some name → name = column
  selection : ∀ e ∈ q.selectedFields, s.keyRule.storedName e.1 = column →
    Projection.action e.2 = .keep ∨ Projection.action e.2 = .leaveOut
  texts : ∀ doc ∈ s.pool.state.store.documents ns, ∃ fs text, doc = .obj fs ∧ (Keyed.keys fs).Nodup ∧
    Keyed.get? fs column = some (.str text)
  distinct : (s.pool.state.store.documents ns).Pairwise fun a b => a.field? column ≠ b.field? column

theorem plain_of_bound {r : KeyRule} {field : String} {last doc : Value}
    (h : r.holdsOn (.single ">" last) doc field = true) : Text.startsWith (r.storedName field) "$" = false := by
  by_contra hop
  rw [Bool.not_eq_false] at hop
  unfold KeyRule.holdsOn at h
  rw [r.item_bound] at h
  simp only [Filter.meaning, Filter.ofValue_obj, Filter.ofFields_cons, Filter.readField, hop, if_true] at h
  cases hjunction : Junction.ofKey? (r.storedName field) with
  | some j =>
    rw [hjunction] at h
    cases h
  | none =>
    rw [hjunction] at h
    split at h
    · rename_i f hf
      simp only at hf
      split at hf <;> cases hf
    · cases h

theorem lt_of_ordered {r : KeyRule} {name text last : String}
    (h : Value.ordered (· == .gt) (some (.str text)) (r.storedValue name (.str last)) = true) : last < text := by
  unfold KeyRule.storedValue at h
  have hplain : ∀ {t}, Value.ordered (· == .gt) (some (.str text)) (.str t) = true → t < text := fun {t} h => by
    have hany : ((Value.str text).order? (.str t)).any (· == .gt) = true := h
    rw [Value.order?_str, Option.any_some, beq_iff_eq] at hany
    exact compare_gt_iff_gt.1 hany
  split at h
  · -- a text that reads as a native identifier has no order with texts
    unfold KeyRule.nativeIds at h
    cases hid : ObjectId.ofText? last with
    | none =>
      rw [hid] at h
      exact hplain h
    | some id =>
      rw [hid] at h
      have hany : ((Value.str text).order? id.toValue).any (· == .gt) = true := h
      cases hany
  · exact hplain h

namespace TextWalk

variable {s : Session Memory} {q : Request} {size : Nat} {column : String} {ns : Namespace}

theorem text_eq (h : TextWalk s q column ns) {doc : Value} (hd : doc ∈ s.pool.state.store.documents ns) :
    doc.field? column = some (.str (textAt column doc)) ∧ doc.path? column = some (.str (textAt column doc)) := by
  obtain ⟨fs, text, rfl, -, htext⟩ := h.texts doc hd
  have hfield : (Value.obj fs).field? column = some (.str text) := htext
  have hat : textAt column (.obj fs) = text := by
    unfold textAt
    rw [hfield]
    rfl
  rw [hat, Value.path?_single h.undotted]
  exact ⟨hfield, htext⟩

/-- **Distinct texts in a column that comes first let a walk climb.** -/
theorem climbs (h : TextWalk s q column ns) (hrenewed : Renewed s q size column (s.pool.state.store.documents ns)) :
    Climbs s q size column ns (textAt column) := by
  refine ⟨h.quiet, h.reads, ?_, ?_, ?_, hrenewed⟩
  · refine h.distinct.imp_of_mem fun ha hb hne heq => hne ?_
    rw [(h.text_eq ha).1, (h.text_eq hb).1, heq]
  · intro a ha b hb hne
    obtain ⟨rest, hsort⟩ : ∃ rest, Keyed.set q.sort column 1 = (column, 1) :: rest := by
      cases hq : q.sort with
      | nil => exact ⟨[], rfl⟩
      | cons e rest =>
        have hfirst : e.1 = column := h.order e.1 (by rw [hq]; rfl)
        obtain ⟨name, direction⟩ := e
        obtain rfl : name = column := hfirst
        exact ⟨rest, by simp [Keyed.set]⟩
    rw [hsort, List.map_cons, h.stored, SortKeys.order, (h.text_eq ha).2, (h.text_eq hb).2, Value.sortOrder,
      Value.order?_str, Option.getD_some]
    cases hcompare : compare (textAt column a) (textAt column b) with
    | eq => exact absurd (compare_eq_iff_eq.1 hcompare) hne
    | _ => rfl
  · intro doc hd last _ hlast doc' hd' f hf hholds
    obtain ⟨fs, text, rfl, hn, htext⟩ := h.texts doc hd
    have hbound := KeyRule.holdsOn_of_bound h.unbarred (Where.mem_behind q.filter column last) hf hholds column
      (by simp [KeyRule.fieldsOf, h.unbarred, h.unjoined])
    have hshown : Keyed.get? fs column = some last := KeyRule.field?_shape h.undotted h.stored h.selection hn hlast
    obtain rfl : last = .str (textAt column (.obj fs)) := Option.some.inj (hshown.symm.trans (h.text_eq hd).1)
    obtain ⟨-, hcompare⟩ := Comparator.holdsOn_eq IsColumn.bound_operator (plain_of_bound hbound) (by simp)
      (s.keyRule.item_bound column (.str (textAt column (.obj fs))))
    rw [hcompare doc', h.stored, (h.text_eq hd').2] at hbound
    exact lt_of_ordered hbound

end TextWalk

/-- **A walk by distinct texts hands over no document twice**, and asks for them no more than once beyond their number,
unless its request names a key to keep batches under for a time.  Then the first batch is handed over for all that
follow it, if it shows a text at its end. -/
theorem chunks_advance {s : Session Memory} {q : Request} {size : Nat} {column : String} {ns : Namespace}
    (h : TextWalk s q column ns) (hsize : 0 < size) :
    ((∀ d, q.cache = some d → d.lifetime = some 0 ∨
        (d.key = none ∧ DigestsApart s (BatchOf s q size column (s.pool.state.store.documents ns)))) →
      Stands s (s.pool.state.store.documents ns) (BatchOf s q size column (s.pool.state.store.documents ns)) s →
      ∀ bound, (s.pool.state.store.documents ns).length < bound →
        ∃ r w, (chunks (keeping fun _ => true) size (some column) bound).on ⟨⟨s, q⟩, []⟩ = (r, w) ∧ r ≠ .ok none ∧
          w.query.session.trips ≤ s.trips + (s.pool.state.store.documents ns).length + 1 ∧
          ∃ given : List Value, w.memory.flatten = given.map (s.keyRule.shape (s.finalize q)) ∧
            given.Pairwise (textAt column · < textAt column ·) ∧
            given.Subperm (s.pool.state.store.documents ns)) ∧
    ∀ d key rows t, q.cache = some d → d.key = some key → d.lifetime ≠ some 0 →
      (Session.select (s.finalize (firstBatch q size column))).on s = (.ok rows, t) → rows ≠ [] →
      (lastOf column rows).isNull = false →
      ∀ bound, ∃ w, (chunks (keeping fun _ => true) size (some column) bound).on ⟨⟨s, q⟩, []⟩ = (.ok none, w) ∧
        w.memory = List.replicate bound rows := by
  refine ⟨fun hdirective hs bound hbound => ?_, fun d key rows t hd hk hl hon hr hlast bound => ?_⟩
  · have hrenewed : Renewed s q size column (s.pool.state.store.documents ns) := by
      by_cases hbrief : ∀ d, q.cache = some d → d.lifetime = some 0
      · exact .inr hbrief
      · obtain ⟨d, hd, hlasting⟩ : ∃ d, q.cache = some d ∧ d.lifetime ≠ some 0 := by simpa using hbrief
        obtain ⟨hkey, hapart⟩ := (hdirective d hd).resolve_left hlasting
        refine .inl (told_of_digests (fun d' hd' => ?_) hapart)
        cases hd.symm.trans hd'
        exact hkey
    exact (h.climbs hrenewed).chunks hsize hs hbound
  · exact chunks_repeat h.quiet.listeners hd hk hl hsize (some column) hon hr hlast bound

def twoNames : Session Memory :=
  stored freshSession ⟨"app", "t"⟩ [.obj [("name", .str "a")], .obj [("name", .str "b")]]

theorem documents_twoNames : twoNames.pool.state.store.documents ⟨"app", "t"⟩ =
    [.obj [("name", .str "a")], .obj [("name", .str "b")]] := documents_stored _ _ _

def keptTagged : Request := { table := some "t", cache := some { tag := some "names" } }

theorem textWalk_twoNames : TextWalk twoNames keptTagged "name" ⟨"app", "t"⟩ := by
  refine ⟨quiet_stored quiet_freshSession _ _, fun n ns hns => ?_, by decide, by decide, by decide, by decide,
    nofun, nofun, ?_, ?_⟩
  · cases ((reads_freshSession (q := freshSession.finalize keptTagged) rfl) n).2.symm.trans hns
    rfl
  · rw [documents_twoNames]
    simp only [List.forall_mem_cons, List.not_mem_nil, false_imp_iff, implies_true, and_true]
    exact ⟨⟨_, _, rfl, by decide, rfl⟩, ⟨_, _, rfl, by decide, rfl⟩⟩
  · rw [documents_twoNames]
    simp [Value.field?, Value.fields?, Keyed.get?]

def askedNames : List Request :=
  [firstBatch keptTagged 1 "name", nextBatch keptTagged 1 "name" (.str "a"), nextBatch keptTagged 1 "name" (.str "b")]

def digestOf (asked : Request) : String :=
  match twoNames.keyRule.find (twoNames.finalize asked) false with
  | .ok p => Digest.ofText (keyed twoNames asked p).text
  | .error _ => ""

theorem digestOf_askedNames : (askedNames.map digestOf).Nodup := by decide +kernel

theorem mem_askedNames {asked : Request} 
    (h : BatchOf twoNames keptTagged 1 "name" (twoNames.pool.state.store.documents ⟨"app", "t"⟩) asked) :
    asked ∈ askedNames := by
  cases h with
  | first => exact List.mem_cons_self
  | next last hlast =>
    obtain ⟨-, doc, hdoc, hshown⟩ := hlast
    rw [documents_twoNames] at hdoc
    have hshape : twoNames.keyRule.shape (twoNames.finalize keptTagged) doc = doc := Session.shape_finalize rfl rfl doc
    rw [hshape] at hshown
    rcases List.mem_cons.1 hdoc with rfl | hdoc
    · cases hshown
      exact List.mem_cons_of_mem _ List.mem_cons_self
    · rw [List.mem_singleton.1 hdoc] at hshown
      cases hshown
      exact List.mem_cons_of_mem _ (List.mem_cons_of_mem _ List.mem_cons_self)

theorem chunks_advance_tagged : TextWalk twoNames keptTagged "name" ⟨"app", "t"⟩ ∧
    ∃ r w, (chunks (keeping fun _ => true) 1 (some "name") 3).on ⟨⟨twoNames, keptTagged⟩, []⟩ = (r, w) ∧
      r ≠ .ok none ∧ w.query.session.trips ≤ 3 ∧
      ∃ given : List Value, w.memory.flatten = given ∧ given.Pairwise (textAt "name" · < textAt "name" ·) ∧
        given.Subperm [.obj [("name", .str "a")], .obj [("name", .str "b")]] := by
  have hapart : DigestsApart twoNames
      (BatchOf twoNames keptTagged 1 "name" (twoNames.pool.state.store.documents ⟨"app", "t"⟩)) := by
    intro asked asked' p p' ha ha' hp hp' hdigest
    have hsame : digestOf asked = digestOf asked' := by
      rw [digestOf, digestOf, hp, hp']
      exact hdigest
    obtain rfl := List.inj_on_of_nodup_map digestOf_askedNames (mem_askedNames ha) (mem_askedNames ha') hsame
    cases hp.symm.trans hp'
    rfl
  obtain ⟨r, w, hon, hend, htrips, given, hgiven, hasc, hsub⟩ := (chunks_advance textWalk_twoNames Nat.one_pos).1
    (fun d hd => by cases hd; exact .inr ⟨rfl, hapart⟩)
    ⟨Carries.refl _, rfl, Cache.wellFormed_empty, fun _ _ _ _ _ hv => by cases hv⟩ 3
    (by rw [documents_twoNames]; decide)
  have hshape : twoNames.keyRule.shape (twoNames.finalize keptTagged) = id :=
    funext fun doc => Session.shape_finalize rfl rfl doc
  rw [hshape, List.map_id] at hgiven
  rw [documents_twoNames] at htrips hsub
  exact ⟨textWalk_twoNames, r, w, hon, hend, htrips, given, hgiven, hasc, hsub⟩

/-- **A walk whose request names a key hands over its first batch again and again.** -/
theorem named_key_repeats : ((chunks (keeping fun _ => true) 1 (some "name") 5).on
      ⟨⟨twoNames, { table := some "t", cache := some { key := some "k" } }⟩, []⟩).2.memory.map (·.map (textAt "name")) =
    [["a"], ["a"], ["a"], ["a"], ["a"]] := by decide +kernel

-- where another order comes first, the bound of a batch is not its last text, and documents come twice
example : ((chunks (keeping fun _ => true) 2 (some "name") 5).on
      ⟨⟨stored freshSession ⟨"app", "t"⟩
          [.obj [("name", .str "b"), ("k", .int 1)], .obj [("name", .str "a"), ("k", .int 2)]],
        { table := some "t", sort := [("k", 1)] }⟩, []⟩).2.memory.map (·.map (textAt "name")) =
    [["b", "a"], ["b"]] := by decide +kernel

end Walk

end DocQuery
