import DocQuery.Proofs.Reading
import DocQuery.Query.Walk

/-!
# The bound of a batch among the conditions of a request

A walk asks for the rows behind a value by one more condition on its column.  As long as the first group has no
condition on that column yet, and the column is a single one, the bound joins the other conditions (`holds_behind`);
otherwise it may take the place of one of them, or become an alternative to them.  `Narrows` tells what matters of this.
-/
namespace DocQuery

namespace Where

/-- The conditions for the rows behind a value of a column. -/
def behind (w : Where (Condition Scope)) (column : String) (last : Value) : Where (Condition Scope) :=
  w.file .and [(some column, .plain (.single ">" last))]

variable {α : Type}

theorem entries_file {w : Where α} {l : Logic} {name : String} (h : ∀ e ∈ w.entries, (e.1, e.2.1) ≠ (l, some name))
    (c : α) : ∃ before rest, w.entries = before ++ rest ∧
      (w.file l [(some name, c)]).entries = before ++ (l, some name, c) :: rest := by
  have hfile : w.file l [(some name, c)] = Keyed.set w l (Keyed.set ((Keyed.get? w l).getD []) (some name) c) := rfl
  rw [hfile]
  cases hg : Keyed.get? w l with
  | none =>
    refine ⟨w.entries, [], (List.append_nil _).symm, ?_⟩
    rw [Keyed.set_of_get?_none hg, entries_append]
    rfl
  | some g =>
    obtain ⟨first, last, hw, -, hset⟩ := Keyed.set_split hg
    have hgroup : Keyed.get? g (some name) = none := by
      rw [Keyed.get?_eq_none]
      intro e he heq
      refine h (l, e) ?_ (by rw [heq])
      rw [hw, entries_append, entries_cons]
      exact List.mem_append_right _ (List.mem_append_left _ (List.mem_map.2 ⟨e, he, rfl⟩))
    refine ⟨entries first ++ g.map (fun e => (l, e)), entries last, ?_, ?_⟩
    · rw [hw, entries_append, entries_cons, List.append_assoc]
    · rw [hset, Option.getD_some, Keyed.set_of_get?_none hgroup, entries_append, entries_cons, List.map_append]
      simp

theorem mem_entries_set {w : Where α} {l : Logic} {g : Group α} {e : Filed α} (he : e ∈ entries (Keyed.set w l g)) :
    e ∈ w.entries ∨ (e.1 = l ∧ e.2 ∈ g) := by
  obtain ⟨group, hgroup, he⟩ := List.mem_flatMap.1 he
  obtain ⟨c, hc, rfl⟩ := List.mem_map.1 he
  rcases Keyed.mem_set hgroup with rfl | hmem
  · exact .inr ⟨rfl, hc⟩
  · exact .inl (List.mem_flatMap.2 ⟨group, hmem, List.mem_map.2 ⟨c, hc, rfl⟩⟩)

theorem mem_entries_behind {w : Where (Condition Scope)} {column : String} {last : Value} {e : Filed (Condition Scope)}
    (he : e ∈ (w.behind column last).entries) :
    e ∈ w.entries ∨ e = (.and, some column, .plain (.single ">" last)) := by
  rcases mem_entries_set he with he | ⟨hl, he⟩
  · exact .inl he
  · rcases Keyed.mem_set he with hbound | hold
    · exact .inr (Prod.ext hl hbound)
    · cases hg : Keyed.get? w .and with
      | none =>
        rw [hg] at hold
        cases hold
      | some g =>
        rw [hg] at hold
        left
        refine List.mem_flatMap.2 ⟨(.and, g), Keyed.mem_of_get? hg, List.mem_map.2 ⟨e.2, hold, ?_⟩⟩
        rw [← hl]

end Where

namespace KeyRule

def Matches (r : KeyRule) (q : Request) (doc : Value) : Prop := ∃ f, r.readFilter q = .ok f ∧ f.holds doc = true

/-- The first group has no condition on a column, and the column is no list of alternatives. -/
structure Apart (w : Where (Condition Scope)) (column : String) : Prop where
  single : Text.hasChar '|' column = false
  fresh : ∀ e ∈ w.entries, (e.1, e.2.1) ≠ (.and, some column)

/-- Whatever a walk by a column asks for next, it gets nothing but matching documents. -/
def Narrows (r : KeyRule) (q : Request) (column : String) : Prop :=
  ∀ doc, r.Matches q doc → ∀ v, (r.shape q doc).field? column = some v → v.isNull = false →
    ∀ doc', r.Matches { q with filter := q.filter.behind column v } doc' → r.Matches q doc'

theorem readFilter_congr {r : KeyRule} {q q' : Request} (hf : q'.filter = q.filter)
    (h : ∀ e ∈ q.filter.entries, r.contributes q'.toScope e = r.contributes q.toScope e) :
    r.readFilter q' = r.readFilter q := by
  unfold readFilter
  rw [compileFilter_eq, compileFilter_eq, hf, List.map_congr_left h]

section Behind

variable {r : KeyRule} {q : Request} {column : String} {v : Value}

theorem isNamed_bound (column : String) (v : Value) : IsNamed (.and, some column, .plain (.single ">" v)) :=
  ⟨_, _, _, rfl⟩

theorem item_bound (r : KeyRule) (field : String) (last : Value) : r.item field (.single ">" last) =
    .ok (.obj [(r.storedName field, .obj [("$gt", r.storedValue (r.storedName field) last)])]) := rfl

theorem targetOf_bound (hs : Text.hasChar '|' column = false) :
    targetOf (.and, some column, .plain (.single ">" v)) = .and := by
  simp only [targetOf, target, hs, Bool.false_eq_true, if_false]
  split
  · rfl
  · rfl

/-- **A bound apart from the conditions holds besides them.** -/
theorem holds_behind (ha : Apart q.filter column) {f g : Filter} (hf : r.readFilter q = .ok f)
    (hg : r.readFilter { q with filter := q.filter.behind column v } = .ok g) (doc : Value) :
    g.holds doc = true ↔ f.holds doc = true ∧ ∀ name ∈ fieldsOf column, r.holdsOn (.single ">" v) doc name = true := by
  obtain ⟨before, rest, hw, hw'⟩ := Where.entries_file ha.fresh (Condition.plain (.single ">" v))
  obtain ⟨items, hitems, -⟩ := (readable_iff r _).1 ⟨g, hg⟩ (.and, some column, .plain (.single ">" v)) <| by
    rw [Where.behind, hw']
    exact List.mem_append_right _ List.mem_cons_self
  rw [holds_iff_items hf, holds_iff_items hg]
  simp only [Where.behind, hw, hw', itemsOf_append, itemsOf_cons hitems, filed_append, List.map_append,
    filed_contributes (isNamed_bound column v) hitems, targetOf_bound ha.single]
  have hanswers : r.answers doc (.and, some column, .plain (.single ">" v))
      = (fieldsOf column).map (r.holdsOn (.single ">" v) doc) := rfl
  rw [Junction.forall_iff, Junction.forall_iff, hanswers]
  simp only [reduceCtorEq, if_false, if_true, List.nil_append, Junction.Admits, List.forall_mem_append,
    List.forall_mem_map]
  constructor
  · rintro ⟨⟨hbefore, hbound, hrest⟩, hothers⟩
    exact ⟨⟨⟨hbefore, hrest⟩, hothers⟩, hbound⟩
  · rintro ⟨⟨⟨hbefore, hrest⟩, hothers⟩, hbound⟩
    exact ⟨⟨hbefore, hbound, hrest⟩, hothers⟩

theorem readable_behind (ha : Apart q.filter column) {f : Filter} (hf : r.readFilter q = .ok f)
    (hb : ∃ items, r.contributes q.toScope (.and, some column, .plain (.single ">" v)) = .ok items ∧
      ∀ i ∈ items, Filter.Readable i.2) :
    ∃ g, r.readFilter { q with filter := q.filter.behind column v } = .ok g := by
  obtain ⟨before, rest, hw, hw'⟩ := Where.entries_file ha.fresh (Condition.plain (.single ">" v))
  have hall := (readable_iff r q).1 ⟨f, hf⟩
  refine (readable_iff r _).2 fun e he => ?_
  simp only [Where.behind, hw'] at he
  rcases List.mem_append.1 he with he | he
  · exact hall e (by rw [hw]; exact List.mem_append_left _ he)
  · rcases List.mem_cons.1 he with rfl | he
    · exact hb
    · exact hall e (by rw [hw]; exact List.mem_append_right _ he)

/-- **Conditions that a bound stays apart from are narrowed by it.** -/
theorem narrows_of_apart (ha : Apart q.filter column) : Narrows r q column := by
  rintro doc ⟨f, hf, -⟩ v - - doc' ⟨g, hg, hd⟩
  exact ⟨f, hf, ((holds_behind ha hf hg doc').1 hd).1⟩

end Behind

end KeyRule

end DocQuery
