import DocQuery.Proofs.Bound

/-!
# The order of filter calls

Calls on fields of their own file the same conditions in whatever order they are made (`Where.entries_foldl_add`).  The
trees differ in the order of groups and conditions, and so do the documents that they compile to; what compiles, what
can be read and what it holds on do not (`KeyRule.calls_commute`).
-/
namespace DocQuery

namespace FilterCall

variable {σ : Type}

/-- A call on named fields with comparisons: with an operator or an operand, or on several fields at once. -/
def IsNamed : FilterCall σ → Prop
  | name _ _ op operand => op.isSome ∨ operand.isSome
  | batch _ es => ∀ e ∈ es, ∃ cmp, e.2 = .plain cmp
  | deferred _ _ _ => False

def labels : FilterCall σ → List (Logic × String)
  | name l field _ _ => [(l, field)]
  | batch l es => es.map fun e => (l, e.1)
  | deferred _ _ _ => []

def filed (c : FilterCall σ) : List (Filed (Condition σ)) := c.entries.map fun e => (c.logic, e)

theorem nameEntries_eq_singleton (field : String) {op operand : Option Value} (h : op.isSome ∨ operand.isSome) :
    ∃ c, nameEntries field op operand = [(some field, c)] := by
  unfold nameEntries
  split
  · simp at h
  · exact ⟨_, rfl⟩
  · split
    · exact ⟨_, rfl⟩
    · split
      · exact ⟨_, rfl⟩
      · exact ⟨_, rfl⟩
  · exact ⟨_, rfl⟩

/-- **A named call files comparisons on its fields**, one for each of its labels. -/
theorem filed_of_isNamed {c : FilterCall σ} (h : c.IsNamed) :
    (∀ e ∈ c.filed, ∃ l field cmp, e = (l, some field, .plain cmp)) ∧
      c.filed.map (fun e => (e.1, e.2.1)) = c.labels.map fun p => (p.1, some p.2) := by
  cases c with
  | name l field op operand =>
    obtain ⟨cmp, hone⟩ := nameEntries_eq_singleton field h
    have hfiled : (name l field op operand : FilterCall σ).filed = [(l, some field, .plain cmp)] := by
      rw [filed, entries, hone]
      rfl
    rw [hfiled]
    exact ⟨fun e he => ⟨l, field, cmp, List.mem_singleton.1 he⟩, rfl⟩
  | batch l es =>
    have hfiled : (batch l es : FilterCall σ).filed = es.map fun e => (l, some e.1, e.2) := by
      rw [filed, entries, List.map_map]
      rfl
    rw [hfiled, labels, List.map_map, List.map_map]
    refine ⟨fun e he => ?_, rfl⟩
    obtain ⟨entry, hentry, rfl⟩ := List.mem_map.1 he
    obtain ⟨cmp, hcmp⟩ := h entry hentry
    exact ⟨l, entry.1, cmp, by rw [hcmp]⟩
  | deferred l op predicate => exact h.elim

end FilterCall

theorem Group.setAll_eq {α : Type} : ∀ {es : Group α} (g : Group α), (∀ e ∈ es, e.1 ≠ none) →
    Group.setAll g es = Keyed.setAll g es
  | [], _, _ => rfl
  | (none, _) :: _, _, h => absurd rfl (h _ List.mem_cons_self)
  | (some field, c) :: _, g, h => setAll_eq (Keyed.set g (some field) c) fun e he => h e (List.mem_cons_of_mem _ he)

namespace Where

section

variable {α : Type} {w : Where α} {l : Logic}

theorem entries_set_append (w : Where α) (l : Logic) (es : Group α) :
    (entries (Keyed.set w l ((Keyed.get? w l).getD [] ++ es))).Perm (w.entries ++ es.map fun e => (l, e)) := by
  cases hg : Keyed.get? w l with
  | none =>
    rw [Keyed.set_of_get?_none hg, entries_append]
    simp [entries]
  | some g =>
    obtain ⟨before, behind, hw, -, hset⟩ := Keyed.set_split hg
    rw [hset, hw, Option.getD_some, entries_append, entries_append, entries_cons, entries_cons, List.map_append]
    simp only [List.append_assoc]
    refine ((List.Perm.append_left _ ?_)).append_left _
    exact List.perm_append_comm

/-- **Conditions on fields of their own join those that are there.** -/
theorem entries_file_perm {es : Group α} (hes : ∀ e ∈ es, e.1 ≠ none)
    (hd : ((w.entries ++ es.map fun e => (l, e)).map fun e => (e.1, e.2.1)).Nodup) :
    (w.file l es).entries.Perm (w.entries ++ es.map fun e => (l, e)) := by
  have hkeys : (Keyed.keys ((Keyed.get? w l).getD [] ++ es)).Nodup := by
    have hsub : (((Keyed.get? w l).getD []).map fun e => (l, e)).Sublist w.entries := by
      cases hg : Keyed.get? w l with
      | none => exact List.nil_sublist _
      | some g =>
        obtain ⟨before, behind, hw, -, -⟩ := Keyed.set_split hg
        rw [hw, entries_append, entries_cons]
        exact (List.sublist_append_left _ _).trans (List.sublist_append_right _ _)
    have hd' := ((hsub.append_right (es.map fun e => (l, e))).map fun e => (e.1, e.2.1)).nodup hd
    rw [← List.map_append, List.map_map] at hd'
    refine List.Nodup.of_map (fun key => (l, key)) ?_
    rw [Keyed.keys, List.map_map]
    exact hd'
  cases es with
  | nil => simp [file]
  | cons e es =>
    have hfile : w.file l (e :: es) = Keyed.set w l (Group.setAll ((Keyed.get? w l).getD []) (e :: es)) := rfl
    rw [hfile, Group.setAll_eq _ hes, Keyed.setAll_eq_append hkeys]
    exact entries_set_append w l (e :: es)

end

/-- **Calls on fields of their own file their conditions**, whatever tree they find. -/
theorem entries_foldl_add {σ : Type} : ∀ {calls : List (FilterCall σ)} {w : Where (Condition σ)},
    (∀ c ∈ calls, c.IsNamed) →
    ((w.entries ++ calls.flatMap FilterCall.filed).map fun e => (e.1, e.2.1)).Nodup →
    (calls.foldl add w).entries.Perm (w.entries ++ calls.flatMap FilterCall.filed)
  | [], w, _, _ => by simp
  | c :: calls, w, hn, hd => by
    obtain ⟨hc, hn⟩ := List.forall_mem_cons.1 hn
    rw [List.flatMap_cons, ← List.append_assoc] at hd
    have hadd : (w.add c).entries.Perm (w.entries ++ c.filed) := by
      refine entries_file_perm (fun e he => ?_) ((((List.sublist_append_left _ _)).map _).nodup hd)
      obtain ⟨l, field, cmp, hfiled⟩ := (FilterCall.filed_of_isNamed hc).1 _ (List.mem_map.2 ⟨e, he, rfl⟩)
      rw [(Prod.mk.inj (Prod.mk.inj hfiled).2).1]
      simp
    -- no label comes twice in the grown tree either: its entries are those before and those of the call
    have hall := hadd.append_right (calls.flatMap FilterCall.filed)
    rw [List.foldl_cons, List.flatMap_cons, ← List.append_assoc]
    exact (entries_foldl_add hn ((hall.map _).nodup_iff.2 hd)).trans hall

def ofCalls {σ : Type} (calls : List (FilterCall σ)) : Where (Condition σ) := calls.foldl add []

theorem entries_ofCalls {σ : Type} {calls : List (FilterCall σ)} (hn : ∀ c ∈ calls, c.IsNamed)
    (hd : (calls.flatMap FilterCall.labels).Nodup) : (ofCalls calls).entries.Perm (calls.flatMap FilterCall.filed) := by
  refine entries_foldl_add (w := []) hn ?_
  have hlabels : (calls.flatMap FilterCall.filed).map (fun e => (e.1, e.2.1)) =
      (calls.flatMap FilterCall.labels).map fun p => (p.1, some p.2) := by
    rw [List.map_flatMap, List.map_flatMap]
    exact List.flatMap_congr fun c hc => (FilterCall.filed_of_isNamed (hn c hc)).2
  rw [entries_nil, List.nil_append, hlabels]
  refine hd.map fun a b hab => ?_
  obtain ⟨hl, hf⟩ := Prod.mk.inj hab
  exact Prod.ext hl (Option.some.inj hf)

end Where

theorem Junction.Admits.perm {j : Junction} {bs bs' : List Bool} (h : bs.Perm bs') : j.Admits bs ↔ j.Admits bs' := by
  have hnil : bs = [] ↔ bs' = [] := by
    rw [← List.length_eq_zero_iff, ← List.length_eq_zero_iff, h.length_eq]
  cases j with
  | and => exact forall_congr' fun b => by rw [h.mem_iff]
  | or => rw [Admits, Admits, hnil, h.mem_iff]
  | nor => rw [Admits, Admits, h.mem_iff]
  | xor => rw [Admits, Admits, hnil, h.count_eq]

namespace KeyRule

section

variable {r : KeyRule} {q q' : Request}

theorem compiles_iff : (∃ fs, r.compileFilter q = .ok fs) ↔
    ∀ e ∈ q.filter.entries, ∃ items, r.contributes q.toScope e = .ok items :=
  ⟨fun ⟨_, h⟩ => (compileFilter_eq_ok.1 h).1, fun h => ⟨_, compileFilter_eq_ok.2 ⟨h, rfl⟩⟩⟩

theorem readFilter_of_compiled {fs : Fields} (h : r.compileFilter q = .ok fs) :
    r.readFilter q = Filter.ofValue (.obj fs) := by
  unfold readFilter
  rw [h]
  rfl

/-- **Requests with the same conditions in another order** compile both or neither, can be read both or neither, and
hold on the same documents. -/
theorem reorder (hscope : q'.toScope = q.toScope) (hp : q.filter.entries.Perm q'.filter.entries)
    (hn : ∀ e ∈ q.filter.entries, IsNamed e) :
    ((∃ fs, r.compileFilter q = .ok fs) ↔ ∃ fs, r.compileFilter q' = .ok fs) ∧
      ((∃ f, r.readFilter q = .ok f) ↔ ∃ f, r.readFilter q' = .ok f) ∧
      ∀ f f', r.readFilter q = .ok f → r.readFilter q' = .ok f' → ∀ doc, f.holds doc = f'.holds doc := by
  refine ⟨?_, ?_, fun f f' hf hf' doc => ?_⟩
  · rw [compiles_iff, compiles_iff, hscope]
    exact forall_congr' fun e => by rw [hp.mem_iff]
  · rw [readable_iff, readable_iff, hscope]
    exact forall_congr' fun e => by rw [hp.mem_iff]
  · have hn' : ∀ e ∈ q'.filter.entries, IsNamed e := fun e he => hn e (hp.mem_iff.2 he)
    rw [Bool.eq_iff_iff, holds_iff_answers hn hf, holds_iff_answers hn' hf']
    exact forall_congr' fun j => Junction.Admits.perm ((hp.filter _).flatMap_right _)

end

/-- **The order of filter calls does not change what they mean.**  Calls on named fields, none of them twice under one
combinator, compile in whatever order they are made, or in none; the documents can all be read or none of them; and
they hold on the same documents. -/
theorem calls_commute (r : KeyRule) (scope : Scope) {calls calls' : List (FilterCall Scope)}
    (hn : ∀ c ∈ calls, c.IsNamed) (hd : (calls.flatMap FilterCall.labels).Nodup) (hp : calls.Perm calls') :
    ((∃ fs, r.compileFilter { toScope := scope, filter := .ofCalls calls } = .ok fs) ↔
        ∃ fs', r.compileFilter { toScope := scope, filter := .ofCalls calls' } = .ok fs') ∧
      ∀ fs fs', r.compileFilter { toScope := scope, filter := .ofCalls calls } = .ok fs →
        r.compileFilter { toScope := scope, filter := .ofCalls calls' } = .ok fs' →
        ((∃ f, Filter.ofValue (.obj fs) = .ok f) ↔ ∃ f', Filter.ofValue (.obj fs') = .ok f') ∧
          ∀ f f', Filter.ofValue (.obj fs) = .ok f → Filter.ofValue (.obj fs') = .ok f' →
            ∀ doc, f.holds doc = f'.holds doc := by
  have hn' : ∀ c ∈ calls', c.IsNamed := fun c hc => hn c (hp.mem_iff.2 hc)
  have hd' : (calls'.flatMap FilterCall.labels).Nodup := (hp.flatMap_right _).nodup_iff.1 hd
  have hentries : (Where.ofCalls calls).entries.Perm (Where.ofCalls calls').entries :=
    (Where.entries_ofCalls hn hd).trans ((hp.flatMap_right _).trans (Where.entries_ofCalls hn' hd').symm)
  have hnamed : ∀ e ∈ (Where.ofCalls calls).entries, KeyRule.IsNamed e := by
    intro e he
    obtain ⟨c, hc, he⟩ := List.mem_flatMap.1 ((Where.entries_ofCalls hn hd).mem_iff.1 he)
    exact (FilterCall.filed_of_isNamed (hn c hc)).1 e he
  let q : Request := { toScope := scope, filter := .ofCalls calls }
  let q' : Request := { toScope := scope, filter := .ofCalls calls' }
  have hscope : q'.toScope = q.toScope := rfl
  obtain ⟨hcompile, hread, hholds⟩ := reorder (r := r) hscope hentries hnamed
  refine ⟨hcompile, fun fs fs' hfs hfs' => ?_⟩
  rw [readFilter_of_compiled hfs, readFilter_of_compiled hfs'] at hread hholds
  exact ⟨hread, hholds⟩

def mixedCalls : List (FilterCall Scope) :=
  [.name .and "a|b" (some (.str "=")) (some (.str "x")), .name .xor "c&d" (some (.str "<")) (some (.str "y")),
    .name .or "e" none (some (.str "z")), .name .xor "e" (some (.str "notnull")) none,
    .batch .and [("f", .plain (.eq (.str "x"))), ("g|h", .plain (.eq (.str "x")))]]

theorem calls_commute_mixed : (∀ c ∈ mixedCalls, c.IsNamed) ∧ (mixedCalls.flatMap FilterCall.labels).Nodup ∧
    mixedCalls.Perm mixedCalls.reverse ∧
    ∃ f f', readFilter ⟨false, .native⟩ { toScope := {}, filter := .ofCalls mixedCalls } = .ok f ∧
      readFilter ⟨false, .native⟩ { toScope := {}, filter := .ofCalls mixedCalls.reverse } = .ok f' ∧
      f.holds (.obj [("e", .str "z"), ("f", .str "x"), ("c", .str "x"), ("d", .str "x")]) = true ∧
      ∀ doc, f.holds doc = f'.holds doc := by
  have hn : ∀ c ∈ mixedCalls, c.IsNamed := by
    simp [mixedCalls, FilterCall.IsNamed, or_imp, forall_and]
  have hd : (mixedCalls.flatMap FilterCall.labels).Nodup := by decide
  have hp : mixedCalls.Perm mixedCalls.reverse := (List.reverse_perm mixedCalls).symm
  obtain ⟨-, h⟩ := calls_commute ⟨false, .native⟩ {} hn hd hp
  exact ⟨hn, hd, hp, _, _, rfl, rfl, rfl, (h _ _ rfl rfl).2 _ _ rfl rfl⟩

end KeyRule

end DocQuery
