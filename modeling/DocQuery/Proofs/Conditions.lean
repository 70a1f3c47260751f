import DocQuery.Proofs.Collected

/-!
# What the conditions of a request compile to

The filter of a request can be read just if every condition compiles and its items can be read (`readable_iff`).  For
conditions on fields it holds on a document just if every combinator admits the answers that the fields of the
conditions in its array give (`holds_iff_answers`).  Nothing here depends on the operators.
-/
namespace DocQuery

def Logic.junction : Logic → Junction
  | and => .and
  | or => .or
  | xor => .xor

theorem Logic.key_junction (l : Logic) : l.junction.key = l.key := by
  cases l <;> rfl

abbrev Filed (α : Type) := Logic × Option String × α

namespace Where

variable {α : Type}

def entries (w : Where α) : List (Filed α) := w.flatMap fun g => g.2.map fun e => (g.1, e)

def under (w : Where α) (l : Logic) : Group α := (w.entries.filter (·.1 = l)).map Prod.snd

theorem mem_under {w : Where α} {l : Logic} {e : Option String × α} : e ∈ w.under l ↔ (l, e) ∈ w.entries := by
  simp [under]

theorem entries_nil : entries ([] : Where α) = [] := rfl

theorem entries_cons (g : Logic × Group α) (w : Where α) :
    entries (g :: w) = g.2.map (fun e => (g.1, e)) ++ entries w := rfl

theorem entries_append (w w' : Where α) : entries (w ++ w') = entries w ++ entries w' := by
  simp [entries]

end Where

namespace KeyRule

/-! ## Conditions of any kind -/

/-- The filter that the conditions of a request compile to, as the store reads it. -/
def readFilter (r : KeyRule) (q : Request) : Except Fault Filter :=
  r.compileFilter q >>= fun fs => Filter.ofValue (.obj fs)

def contributes (r : KeyRule) (scope : Scope) (e : Filed (Condition Scope)) : Except Fault Contribution :=
  r.contribution scope e.1 e.2.1 e.2.2

def itemsOf (r : KeyRule) (scope : Scope) (es : List (Filed (Condition Scope))) : Contribution :=
  es.flatMap fun e => match r.contributes scope e with
    | .ok items => items
    | .error _ => []

theorem itemsOf_append (r : KeyRule) (scope : Scope) (as bs : List (Filed (Condition Scope))) :
    r.itemsOf scope (as ++ bs) = r.itemsOf scope as ++ r.itemsOf scope bs := by
  simp [itemsOf]

theorem itemsOf_cons {r : KeyRule} {scope : Scope} {e : Filed (Condition Scope)} {items : Contribution}
    (h : r.contributes scope e = .ok items) (es : List (Filed (Condition Scope))) :
    r.itemsOf scope (e :: es) = items ++ r.itemsOf scope es := by
  simp [itemsOf, h]

theorem compileFilter_eq (r : KeyRule) (q : Request) :
    r.compileFilter q = collect [] (q.filter.entries.map (r.contributes q.toScope)) := by
  unfold compileFilter Where.entries
  rw [List.map_flatMap]
  simp only [List.map_map, contributes, Function.comp_def]

theorem collect_contributes (r : KeyRule) (scope : Scope) :
    ∀ (es : List (Filed (Condition Scope))) (fs fs' : Fields), collect fs (es.map (r.contributes scope)) = .ok fs' ↔
      (∀ e ∈ es, ∃ items, r.contributes scope e = .ok items) ∧ fs' = (r.itemsOf scope es).foldl push fs
  | [], fs, fs' => by simp [collect, itemsOf, eq_comm]
  | e :: es, fs, fs' => by
    rw [List.map_cons, collect, bind_eq_ok]
    constructor
    · rintro ⟨items, he, h⟩
      obtain ⟨hes, rfl⟩ := (collect_contributes r scope es _ fs').1 h
      refine ⟨List.forall_mem_cons.2 ⟨⟨items, he⟩, hes⟩, ?_⟩
      rw [itemsOf_cons he, List.foldl_append]
    · rintro ⟨hes, rfl⟩
      obtain ⟨⟨items, he⟩, hes⟩ := List.forall_mem_cons.1 hes
      refine ⟨items, he, (collect_contributes r scope es _ _).2 ⟨hes, ?_⟩⟩
      rw [itemsOf_cons he, List.foldl_append]

theorem compileFilter_eq_ok {r : KeyRule} {q : Request} {fs : Fields} : r.compileFilter q = .ok fs ↔
    (∀ e ∈ q.filter.entries, ∃ items, r.contributes q.toScope e = .ok items) ∧
      fs = (r.itemsOf q.toScope q.filter.entries).foldl push [] := by
  rw [compileFilter_eq, collect_contributes]

def HasKeys (items : Contribution) : Prop := ∀ e ∈ items, ∃ j : Junction, e.1 = j.key

theorem hasKeys_items (r : KeyRule) (j : Junction) (c : Comparison) :
    ∀ (fields : List String) (items : Contribution), r.items j.key c fields = .ok items → HasKeys items
  | [], items, h => by
    cases h
    exact fun e he => by cases he
  | field :: fields, items, h => by
    rw [KeyRule.items, bind_eq_ok] at h
    obtain ⟨first, -, h⟩ := h
    rw [bind_eq_ok] at h
    obtain ⟨rest, hrest, h⟩ := h
    cases h
    exact List.forall_mem_cons.2 ⟨⟨j, rfl⟩, hasKeys_items r j c fields rest hrest⟩

/-- The combinator whose array a condition on a field goes to: bars mean alternatives, ampersands agreement. -/
def target (l : Logic) (field : String) : Junction :=
  if Text.hasChar '|' field then .or else if Text.hasChar '&' field then .and else l.junction

def fieldsOf (field : String) : List String :=
  if Text.hasChar '|' field then Text.cut '|' field
  else if Text.hasChar '&' field then Text.cut '&' field
  else [field]

theorem fieldsOf_ne_nil (field : String) : fieldsOf field ≠ [] := by
  unfold fieldsOf
  split
  · exact Text.cut_ne_nil _ _
  · split
    · exact Text.cut_ne_nil _ _
    · simp

theorem plainContribution_some (r : KeyRule) (l : Logic) (field : String) (c : Comparison) :
    r.plainContribution l (some field) c = r.items (target l field).key c (fieldsOf field) := by
  unfold plainContribution target fieldsOf
  simp only
  split
  · rfl
  · split
    · rfl
    · rw [Logic.key_junction]

theorem hasKeys_contributes {r : KeyRule} {scope : Scope} {e : Filed (Condition Scope)} {items : Contribution}
    (h : r.contributes scope e = .ok items) : HasKeys items := by
  obtain ⟨l, field, c⟩ := e
  simp only [contributes] at h
  cases c with
  | plain c =>
    rw [contribution] at h
    cases field with
    | some field =>
      rw [plainContribution_some] at h
      exact hasKeys_items r _ c _ items h
    | none =>
      simp only [plainContribution] at h
      split at h
      · cases h
        exact fun e he => ⟨l.junction, by rw [List.mem_singleton.1 he, Logic.key_junction]⟩
      · cases h
  | deferred op predicate =>
    rw [contribution, nestedContribution, bind_eq_ok] at h
    obtain ⟨fs, -, h⟩ := h
    split at h
    · cases h
      exact fun e he => by cases he
    · rw [bind_eq_ok] at h
      obtain ⟨key, hkey, h⟩ := h
      cases h
      refine fun e he => ?_
      rw [List.mem_singleton.1 he]
      unfold nestedKey at hkey
      split at hkey
      · cases hkey
        exact ⟨l.junction, (Logic.key_junction l).symm⟩
      · split at hkey
        · cases hkey
          exact ⟨.nor, rfl⟩
        · obtain ⟨l', -, rfl⟩ := map_eq_ok.1 hkey
          exact ⟨l'.junction, (Logic.key_junction l').symm⟩

theorem hasKeys_itemsOf (r : KeyRule) (scope : Scope) (es : List (Filed (Condition Scope))) :
    HasKeys (r.itemsOf scope es) := by
  intro i hi
  obtain ⟨e, -, hi⟩ := List.mem_flatMap.1 hi
  split at hi
  · rename_i items h
    exact hasKeys_contributes h i hi
  · cases hi

/-- **A request's filter can be read just if every condition compiles to items that can be read.** -/
theorem readable_iff (r : KeyRule) (q : Request) : (∃ f, r.readFilter q = .ok f) ↔
    ∀ e ∈ q.filter.entries, ∃ items, r.contributes q.toScope e = .ok items ∧ ∀ i ∈ items, Filter.Readable i.2 := by
  have hread := readable_collected (hasKeys_itemsOf r q.toScope q.filter.entries)
  unfold readFilter
  simp only [bind_eq_ok]
  constructor
  · rintro ⟨f, fs, hfs, hf⟩ e he
    obtain ⟨hes, rfl⟩ := compileFilter_eq_ok.1 hfs
    obtain ⟨items, hitems⟩ := hes e he
    refine ⟨items, hitems, fun i hi => hread.1 ⟨f, hf⟩ i (List.mem_flatMap.2 ⟨e, he, ?_⟩)⟩
    rw [hitems]
    exact hi
  · intro h
    have hall : ∀ i ∈ r.itemsOf q.toScope q.filter.entries, Filter.Readable i.2 := by
      intro i hi
      obtain ⟨e, he, hi⟩ := List.mem_flatMap.1 hi
      obtain ⟨items, hitems, hr⟩ := h e he
      rw [hitems] at hi
      exact hr i hi
    obtain ⟨f, hf⟩ := hread.2 hall
    exact ⟨f, _, compileFilter_eq_ok.2 ⟨fun e he => (h e he).imp fun _ hi => hi.1, rfl⟩, hf⟩

/-- **A request's filter holds just if every combinator admits what the items under its key answer.** -/
theorem holds_iff_items {r : KeyRule} {q : Request} {f : Filter} (h : r.readFilter q = .ok f) (doc : Value) :
    f.holds doc = true ↔ ∀ j : Junction,
      j.Admits ((filed j.key (r.itemsOf q.toScope q.filter.entries)).map (Filter.meaning · doc)) := by
  unfold readFilter at h
  rw [bind_eq_ok] at h
  obtain ⟨fs, hfs, hf⟩ := h
  obtain ⟨-, rfl⟩ := compileFilter_eq_ok.1 hfs
  exact holds_collected (hasKeys_itemsOf r q.toScope q.filter.entries) hf doc

/-! ## Conditions on fields -/

/-- Whether a comparison, compiled for a field alone, holds on a document. -/
def holdsOn (r : KeyRule) (c : Comparison) (doc : Value) (field : String) : Bool :=
  match r.item field c with
  | .ok v => Filter.meaning v doc
  | .error _ => false

/-- What a condition on fields answers on a document, field by field. -/
def answers (r : KeyRule) (doc : Value) : Filed (Condition Scope) → List Bool
  | (_, some field, .plain c) => (fieldsOf field).map (r.holdsOn c doc)
  | _ => []

def targetOf : Filed (Condition Scope) → Junction
  | (l, some field, _) => target l field
  | (l, none, _) => l.junction

def IsNamed (e : Filed (Condition Scope)) : Prop := ∃ l field c, e = (l, some field, .plain c)

theorem items_eq_ok (r : KeyRule) (key : String) (c : Comparison) :
    ∀ (fields : List String) (items : Contribution), r.items key c fields = .ok items →
      (∀ e ∈ items, e.1 = key) ∧ ∀ doc, items.map (fun e => Filter.meaning e.2 doc) = fields.map (r.holdsOn c doc)
  | [], items, h => by
    cases h
    simp
  | field :: fields, items, h => by
    rw [KeyRule.items, bind_eq_ok] at h
    obtain ⟨first, hfirst, h⟩ := h
    rw [bind_eq_ok] at h
    obtain ⟨rest, hrest, h⟩ := h
    cases h
    obtain ⟨hkey, hmap⟩ := items_eq_ok r key c fields rest hrest
    refine ⟨List.forall_mem_cons.2 ⟨rfl, hkey⟩, fun doc => ?_⟩
    have hon : r.holdsOn c doc field = Filter.meaning first doc := by
      unfold holdsOn
      rw [hfirst]
    rw [List.map_cons, List.map_cons, hmap doc, hon]

theorem key_injective {i j : Junction} (h : i.key = j.key) : i = j := by
  have := congrArg Junction.ofKey? h
  simpa using this

theorem filed_contributes {r : KeyRule} {scope : Scope} {e : Filed (Condition Scope)} (hn : IsNamed e)
    {items : Contribution} (h : r.contributes scope e = .ok items) (doc : Value) (j : Junction) :
    (filed j.key items).map (Filter.meaning · doc) = if targetOf e = j then r.answers doc e else [] := by
  obtain ⟨l, field, c, rfl⟩ := hn
  simp only [contributes, contribution] at h
  rw [plainContribution_some] at h
  obtain ⟨hkey, hmap⟩ := items_eq_ok r _ c _ items h
  unfold filed targetOf answers
  by_cases hj : target l field = j
  · subst hj
    have hall : items.filter (·.1 = (target l field).key) = items := by
      rw [List.filter_eq_self]
      exact fun e he => by simpa using hkey e he
    simp only [hall, if_true, List.map_map, Function.comp_def]
    exact hmap doc
  · have hnone : items.filter (·.1 = j.key) = [] := by
      rw [List.filter_eq_nil_iff]
      intro e he
      rw [hkey e he]
      simpa using fun h => hj (key_injective h)
    simp only [hnone, hj, if_false]
    rfl

/-- **The filter of conditions on fields holds just if every combinator admits what the conditions in its array
answer.** -/
theorem holds_iff_answers {r : KeyRule} {q : Request} (hn : ∀ e ∈ q.filter.entries, IsNamed e) {f : Filter}
    (h : r.readFilter q = .ok f) (doc : Value) :
    f.holds doc = true ↔
      ∀ j : Junction, j.Admits ((q.filter.entries.filter (targetOf · = j)).flatMap (r.answers doc)) := by
  rw [holds_iff_items h]
  refine forall_congr' fun j => ?_
  have hes := (readable_iff r q).1 ⟨f, h⟩
  generalize q.filter.entries = es at hn hes ⊢
  have heq : (filed j.key (r.itemsOf q.toScope es)).map (Filter.meaning · doc)
      = (es.filter (targetOf · = j)).flatMap (r.answers doc) := by
    induction es with
    | nil => rfl
    | cons e es ih =>
      obtain ⟨he, hn⟩ := List.forall_mem_cons.1 hn
      obtain ⟨⟨items, hitems, -⟩, hes⟩ := List.forall_mem_cons.1 hes
      rw [itemsOf_cons hitems, filed_append, List.map_append, filed_contributes he hitems, ih hn hes, List.filter_cons]
      by_cases ht : targetOf e = j
      · simp [ht]
      · simp [ht]
  rw [heq]

end KeyRule

end DocQuery
