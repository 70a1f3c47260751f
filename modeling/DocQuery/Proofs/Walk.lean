import DocQuery.Proofs.Bound

/-!
# The steps of a walk

A walk shows a batch to its visitor and then ends, or asks for the batch behind the last row (`batches_next`).  The
requests that it makes differ from the one it was given by the bound, the window and the order only, so that conditions
which do not look at window and order (`Steady`) mean the same throughout.
-/
namespace DocQuery

theorem Value.eq_null_of_isNull {v : Value} (h : v.isNull = true) : v = .null := by
  cases v with
  | null => rfl
  | _ => cases h

namespace Walk

section Steps

variable {σ β : Type} {visitor : Visitor β} {base : Request} {size : Nat} {column : String} {rows : List Value}
  {w : Walk σ β}

def withRequest (w : Walk σ β) (q : Request) : Walk σ β := { w with query := { w.query with request := q } }

theorem memory_queried {α : Type} (m : Run (Query σ) α) (w : Walk σ β) : ((queried m).on w).2.memory = w.memory := rfl

theorem visit_on (visitor : Visitor β) (rows : List Value) (w : Walk σ β) :
    (visit visitor rows).on w = (.ok (visitor rows w.memory).2, { w with memory := (visitor rows w.memory).1 }) := rfl

theorem batches_nil (n : Nat) :
    (batches visitor base size column (n + 1) []).on w = (.ok (some true), w.withRequest base) := rfl

theorem batches_stop (n : Nat) (hr : rows ≠ []) (hm : (visitor rows w.memory).2 = false) :
    (batches visitor base size column (n + 1) rows).on w =
      (.ok (some false), { w with memory := (visitor rows w.memory).1 }.withRequest base) := by
  obtain ⟨row, rest, rfl⟩ := List.exists_cons_of_ne_nil hr
  rw [batches]
  simp only [List.isEmpty_cons, Bool.false_eq_true, if_false]
  rw [Run.on_bind_ok (visit_on _ _ _), hm]
  rfl

theorem batches_end (n : Nat) (hr : rows ≠ []) (hm : (visitor rows w.memory).2 = true)
    (hl : lastOf column rows = .null) : (batches visitor base size column (n + 1) rows).on w =
      (.ok (some true), { w with memory := (visitor rows w.memory).1 }.withRequest base) := by
  obtain ⟨row, rest, rfl⟩ := List.exists_cons_of_ne_nil hr
  rw [batches]
  simp only [List.isEmpty_cons, Bool.false_eq_true, if_false]
  rw [Run.on_bind_ok (visit_on _ _ _), hm, hl]
  rfl

/-- **A walk that does not end with a batch reads the batch behind its last row.** -/
theorem batches_next (n : Nat) (hr : rows ≠ []) (hm : (visitor rows w.memory).2 = true) {last : Value}
    (hl : lastOf column rows = last) (hn : last.isNull = false) :
    (batches visitor base size column (n + 1) rows).on w =
      (queried Query.select >>= batches visitor base size column n).on
        ({ w with memory := (visitor rows w.memory).1 }.withRequest (nextBatch base size column last)) := by
  obtain ⟨row, rest, rfl⟩ := List.exists_cons_of_ne_nil hr
  rw [batches]
  simp only [List.isEmpty_cons, Bool.false_eq_true, if_false]
  rw [Run.on_bind_ok (visit_on _ _ _), hm, hl]
  cases last with
  | null => cases hn
  | _ => rfl

theorem memory_batches_succ (visitor : Visitor β) (base : Request) (size : Nat) (column : String) (n : Nat)
    (hr : rows ≠ []) (w : Walk σ β) :
    ((batches visitor base size column (n + 1) rows).on w).2.memory = (visitor rows w.memory).1 ∨
      ∃ last rows' w', lastOf column rows = last ∧ last.isNull = false ∧
        (queried Query.select).on ({ w with memory := (visitor rows w.memory).1 }.withRequest
          (nextBatch base size column last)) = (.ok rows', w') ∧
        w'.memory = (visitor rows w.memory).1 ∧
        ((batches visitor base size column (n + 1) rows).on w).2.memory =
          ((batches visitor base size column n rows').on w').2.memory := by
  cases hm : (visitor rows w.memory).2 with
  | false =>
    left
    rw [batches_stop n hr hm]
    rfl
  | true =>
    cases hnull : (lastOf column rows).isNull with
    | true =>
      left
      rw [batches_end n hr hm (Value.eq_null_of_isNull hnull)]
      rfl
    | false =>
      rw [batches_next n hr hm rfl hnull]
      have hsame := memory_queried Query.select ({ w with memory := (visitor rows w.memory).1 }.withRequest
        (nextBatch base size column (lastOf column rows)))
      rcases hon : (queried Query.select).on ({ w with memory := (visitor rows w.memory).1 }.withRequest
        (nextBatch base size column (lastOf column rows))) with ⟨e | rows', w'⟩
      · rw [hon] at hsame
        rw [Run.on_bind_error hon]
        exact .inl hsame
      · rw [hon] at hsame
        rw [Run.on_bind_ok hon]
        exact .inr ⟨_, rows', w', rfl, hnull, hon, hsame, rfl⟩

theorem chunks_zero (column : Option String) (bound : Nat) :
    (chunks visitor 0 column bound).on w = (.error (.query .chunkSize), w) := rfl

/-- **A walk begins with the first batch.** -/
theorem chunks_on (hsize : size ≠ 0) (s : Session σ) (q : Request) (memory : β) (column : Option String) (bound : Nat) :
    (chunks visitor size column bound).on ⟨⟨s, q⟩, memory⟩ =
      (queried Query.select >>= batches visitor q size (column.getD (s.primaryKeyFor q)) bound).on
        ⟨⟨s, firstBatch q size (column.getD (s.primaryKeyFor q))⟩, memory⟩ := by
  unfold chunks
  rw [if_neg hsize]
  rfl

end Steps

end Walk

namespace KeyRule

/-- Conditions that mean the same whatever the window and the order of their request. -/
def Steady (r : KeyRule) (q : Request) : Prop :=
  ∀ e ∈ q.filter.entries, ∀ skip limit sort,
    r.contributes { q.toScope with skip := skip, limit := limit, sort := sort } e = r.contributes q.toScope e

theorem steady_of_plain {r : KeyRule} {q : Request} (h : ∀ e ∈ q.filter.entries, ∃ c, e.2.2 = .plain c) :
    Steady r q := by
  intro e he skip limit sort
  obtain ⟨l, field, c⟩ := e
  obtain ⟨c, rfl⟩ := h _ he
  rfl

end KeyRule

namespace Walk

variable {s : Session Memory} {q : Request} {column : String}

theorem readFilter_firstBatch (hst : s.keyRule.Steady (s.finalize q)) (size : Nat) (column : String) :
    s.keyRule.readFilter (s.finalize (firstBatch q size column)) = s.keyRule.readFilter (s.finalize q) :=
  KeyRule.readFilter_congr rfl fun e he => hst e he _ _ _

theorem readFilter_nextBatch (hst : s.keyRule.Steady (s.finalize q)) (size : Nat) (column : String) (last : Value) :
    s.keyRule.readFilter (s.finalize (nextBatch q size column last)) =
      s.keyRule.readFilter { s.finalize q with filter := q.filter.behind column last } := by
  refine KeyRule.readFilter_congr rfl fun e he => ?_
  rcases Where.mem_entries_behind he with he | rfl
  · exact hst e he _ _ _
  · rfl

/-- **A walk reads the pending request, finalized**, by the rules of the session it began with. -/
theorem queried_select_on {β : Type} (hs : s.Quiet) {w : Walk Memory β} (hw : Session.Carries s w.query.session)
    (hc : w.query.request.cache = none) {q' : Request} (hq : s.finalize w.query.request = q') :
    ∃ t, Session.Carries s t ∧
      ((∃ n ns f, s.collection q' (s.settings.select (Session.readRole q') n) = .ok ns ∧
          s.keyRule.readFilter q' = .ok f ∧ (queried Query.select).on w =
            (.ok (s.keyRule.rows q' f (s.pool.state.store.documents ns)), { w with query := ⟨t, q'⟩ })) ∨
        ((∀ ns f, s.Reads q' ns → s.keyRule.readFilter q' ≠ .ok f) ∧
          ∃ e, (queried Query.select).on w = (.error e, { w with query := ⟨t, q'⟩ }))) := by
  obtain ⟨t, ht, hon⟩ := Query.select_on (hw.quiet hs) hc
  rw [hw.finalize, hq, hw.keyRule, hw.pool.store] at hon
  refine ⟨t, hw.trans ht, ?_⟩
  rw [queried, Run.on_within]
  rcases hon with ⟨ns, f, hns, hf, hrows⟩ | ⟨hno, e, he⟩
  · left
    rw [hrows]
    rw [hw.collection] at hns
    unfold Session.slotFor Session.settings at hns
    rw [hw.pool.settings] at hns
    exact ⟨_, ns, f, hns, hf, rfl⟩
  · right
    rw [he]
    exact ⟨fun ns f hr hf => hno ⟨ns, f, hw.answers hr hf⟩, e, rfl⟩

/-- **A walk over one collection reads its documents.** -/
theorem queried_select_of_reads {β : Type} (hs : s.Quiet) {w : Walk Memory β} (hw : Session.Carries s w.query.session)
    (hc : w.query.request.cache = none) {q' : Request} (hq : s.finalize w.query.request = q') {ns : Namespace}
    (hr : s.Reads q' ns) {f : Filter} (hf : s.keyRule.readFilter q' = .ok f) :
    ∃ t, Session.Carries s t ∧ (queried Query.select).on w =
      (.ok (s.keyRule.rows q' f (s.pool.state.store.documents ns)), { w with query := ⟨t, q'⟩ }) := by
  obtain ⟨t, ht, hon⟩ := queried_select_on hs hw hc hq
  rcases hon with ⟨n, ns', f', hns', hf', hok⟩ | ⟨hno, -⟩
  · cases hns'.symm.trans (hr n).2
    cases hf'.symm.trans hf
    exact ⟨t, ht, hok⟩
  · exact absurd hf (hno ns f hr)

end Walk

end DocQuery
