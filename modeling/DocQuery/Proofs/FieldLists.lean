import DocQuery.Proofs.Comparators

/-!
# Conditions on lists of fields

A condition on fields between bars asks for one of them, a condition on fields between ampersands for all.  The items of
both are filed next to those of other conditions, so that bars stay by themselves only if nothing else is filed with
them: conditions keep their own meaning just if the alternatives are `Separate` (`lists_keep_meaning`).
-/
namespace DocQuery

namespace Where

variable {α : Type}

def labels (w : Where α) : List (Logic × Option String) := w.entries.map fun e => (e.1, e.2.1)

def layout (w : Where α) : List (Logic × List (Option String)) := w.map fun g => (g.1, g.2.map Prod.fst)

end Where

namespace KeyRule

/-- Whether a condition holds on a document: on one of the fields between bars, on all fields between ampersands. -/
def listHolds (r : KeyRule) (doc : Value) : Option String × Condition Scope → Bool
  | (some field, .plain c) =>
    if Text.hasChar '|' field then (Text.cut '|' field).any (r.holdsOn c doc)
    else if Text.hasChar '&' field then (Text.cut '&' field).all (r.holdsOn c doc)
    else r.holdsOn c doc field
  | _ => false

/-- The conditions keep their own meaning on a document: all of the first group hold, and one of the second group does
if it has any. -/
def KeepsMeaning (r : KeyRule) (w : Where (Condition Scope)) (doc : Value) : Prop :=
  (∀ e ∈ w.under .and, r.listHolds doc e = true) ∧
    (w.under .or = [] ∨ ∃ e ∈ w.under .or, r.listHolds doc e = true)

def alternatives (w : Where (Condition Scope)) : List (Filed (Condition Scope)) := w.entries.filter (targetOf · = .or)

/-- The alternatives are those of the second group alone, or there is a single one. -/
def Separate (w : Where (Condition Scope)) : Prop :=
  (∀ e ∈ alternatives w, e.1 = .or) ∨ (alternatives w).length ≤ 1

theorem answers_ne_nil {r : KeyRule} {doc : Value} {e : Filed (Condition Scope)} (h : IsNamed e) :
    r.answers doc e ≠ [] := by
  obtain ⟨l, field, c, rfl⟩ := h
  simpa [answers] using fieldsOf_ne_nil field

theorem listHolds_of_all {r : KeyRule} {doc : Value} {e : Filed (Condition Scope)} (hn : IsNamed e)
    (h : ∀ b ∈ r.answers doc e, b = true) : r.listHolds doc e.2 = true := by
  obtain ⟨l, field, c, rfl⟩ := hn
  simp only [answers, fieldsOf, List.forall_mem_map] at h
  simp only [listHolds]
  split at h
  · rename_i hbar
    obtain ⟨name, hname⟩ := List.exists_mem_of_ne_nil _ (Text.cut_ne_nil '|' field)
    simp only [hbar, if_true]
    exact List.any_eq_true.2 ⟨name, hname, h name hname⟩
  · rename_i hbar
    simp only [hbar, Bool.false_eq_true, if_false]
    split at h
    · rename_i hamp
      simp only [hamp, if_true]
      exact List.all_eq_true.2 h
    · rename_i hamp
      simp only [hamp, Bool.false_eq_true, if_false]
      exact h field List.mem_cons_self

theorem listHolds_of_mem {r : KeyRule} {doc : Value} {e : Filed (Condition Scope)} (hn : IsNamed e)
    (ht : targetOf e = .or) (h : true ∈ r.answers doc e) : r.listHolds doc e.2 = true := by
  obtain ⟨l, field, c, rfl⟩ := hn
  simp only [answers, fieldsOf, List.mem_map] at h
  simp only [targetOf, target] at ht
  simp only [listHolds]
  obtain ⟨name, hname, hon⟩ := h
  split at hname
  · rename_i hbar
    simp only [hbar, if_true]
    exact List.any_eq_true.2 ⟨name, hname, hon⟩
  · rename_i hbar
    simp only [hbar, Bool.false_eq_true, if_false] at ht ⊢
    split at hname
    · rename_i hamp
      simp [hamp] at ht
    · rename_i hamp
      simp only [hamp, Bool.false_eq_true, if_false]
      rw [List.mem_singleton.1 hname] at hon
      exact hon

theorem targetOf_and_or {e : Filed (Condition Scope)} (hn : IsNamed e) (hx : e.1 ≠ .xor) :
    targetOf e = .and ∨ targetOf e = .or := by
  obtain ⟨l, field, c, rfl⟩ := hn
  simp only [targetOf, target]
  split
  · exact .inr rfl
  · split
    · exact .inl rfl
    · cases l
      · exact .inl rfl
      · exact .inr rfl
      · exact absurd rfl hx

theorem eq_of_mem_of_mem {α : Type} {l : List α} (hl : l.length ≤ 1) {a b : α} (ha : a ∈ l) (hb : b ∈ l) : a = b := by
  obtain ⟨c, rfl⟩ := List.length_eq_one_iff.1 (Nat.le_antisymm hl (List.length_pos_of_mem ha))
  rw [List.mem_singleton.1 ha, List.mem_singleton.1 hb]

/-- **Separate alternatives keep their own meaning.** -/
theorem keepsMeaning_of_separate {r : KeyRule} {q : Request} (hn : ∀ e ∈ q.filter.entries, IsNamed e)
    (hsep : Separate q.filter) {f : Filter} (h : r.readFilter q = .ok f) {doc : Value} (hd : f.holds doc = true) :
    KeepsMeaning r q.filter doc := by
  have hj := (holds_iff_answers hn h doc).1 hd
  have hand : ∀ e ∈ q.filter.entries, targetOf e = .and → r.listHolds doc e.2 = true := fun e he ht =>
    listHolds_of_all (hn e he) fun b hb =>
      hj .and b (List.mem_flatMap.2 ⟨e, List.mem_filter.2 ⟨he, by simpa using ht⟩, hb⟩)
  have hmem : ∀ {e}, e ∈ alternatives q.filter ↔ e ∈ q.filter.entries ∧ targetOf e = .or := by
    simp [alternatives]
  have hor : alternatives q.filter = [] ∨ ∃ e ∈ alternatives q.filter, r.listHolds doc e.2 = true := by
    rcases hj .or with hnil | htrue
    · left
      refine List.eq_nil_iff_forall_not_mem.2 fun e he => ?_
      exact answers_ne_nil (hn e (hmem.1 he).1) (List.flatMap_eq_nil_iff.1 hnil e he)
    · right
      obtain ⟨e, he, hb⟩ := List.mem_flatMap.1 htrue
      exact ⟨e, he, listHolds_of_mem (hn e (hmem.1 he).1) (hmem.1 he).2 hb⟩
  constructor
  · intro e he
    have he := Where.mem_under.1 he
    rcases targetOf_and_or (hn _ he) (by simp) with ht | ht
    · exact hand _ he ht
    · have halt := hmem.2 ⟨he, ht⟩
      rcases hsep with hall | hone
      · cases hall _ halt
      · rcases hor with hnil | ⟨e', he', hold⟩
        · rw [hnil] at halt
          cases halt
        · rw [← eq_of_mem_of_mem hone halt he'] at hold
          exact hold
  · by_cases hnil : q.filter.under .or = []
    · exact .inl hnil
    · right
      obtain ⟨e₀, he₀⟩ := List.exists_mem_of_ne_nil _ hnil
      have hmem₀ := Where.mem_under.1 he₀
      rcases targetOf_and_or (hn _ hmem₀) (by simp) with ht | ht
      · exact ⟨e₀, he₀, hand _ hmem₀ ht⟩
      · have halt := hmem.2 ⟨hmem₀, ht⟩
        rcases hor with hnone | ⟨e, he, hold⟩
        · rw [hnone] at halt
          cases halt
        · rcases hsep with hall | hone
          · refine ⟨e.2, Where.mem_under.2 ?_, hold⟩
            rw [← hall e he]
            exact (hmem.1 he).1
          · rw [← eq_of_mem_of_mem hone halt he] at hold
            exact ⟨e₀, he₀, hold⟩

/-! ## Alternatives that are not separate -/

/-- Conditions as calls leave them: under two combinators, each on fields that no operator is named like, and no field
list twice under one combinator. -/
structure Ordinary (r : KeyRule) (w : Where (Condition Scope)) : Prop where
  distinct : w.labels.Nodup
  two_groups : ∀ e ∈ w.entries, e.1 ≠ .xor
  plain_names : ∀ e ∈ w.entries, ∀ field, e.2.1 = some field →
    ∀ name ∈ fieldsOf field, Text.startsWith (r.storedName name) "$" = false

def constantly (b : Bool) : Comparison := .single (if b then "not in" else "in") (.arr [])

theorem constantly_item (r : KeyRule) {name : String} (h : Text.startsWith (r.storedName name) "$" = false) (b : Bool) :
    ∃ item, r.item name (constantly b) = .ok item ∧ Filter.Readable item ∧
      ∀ doc, r.holdsOn (constantly b) doc name = b := by
  cases b with
  | false =>
    have hrel : Comparator.ofText? "in" = some .isIn := rfl
    have hitem : r.item name (constantly false) = .ok (.obj [(r.storedName name, .obj [("$in", .arr [])])]) := by
      simp only [constantly, KeyRule.item, Bool.false_eq_true, if_false]
      rw [Comparator.ofOperator_eq hrel]
      rfl
    obtain ⟨hread, hholds⟩ := Comparator.holdsOn_eq hrel h (by simp) hitem
    exact ⟨_, hitem, hread, hholds⟩
  | true =>
    have hrel : Comparator.ofText? "not in" = some .notIn := rfl
    have hitem : r.item name (constantly true) = .ok (.obj [(r.storedName name, .obj [("$nin", .arr [])])]) := by
      simp only [constantly, KeyRule.item, if_true]
      rw [Comparator.ofOperator_eq hrel]
      rfl
    obtain ⟨hread, hholds⟩ := Comparator.holdsOn_eq hrel h (by simp) hitem
    exact ⟨_, hitem, hread, hholds⟩

theorem constantly_items (r : KeyRule) (key : String) (b : Bool) : ∀ fields : List String,
    (∀ name ∈ fields, Text.startsWith (r.storedName name) "$" = false) →
    ∃ items, r.items key (constantly b) fields = .ok items ∧ ∀ i ∈ items, Filter.Readable i.2
  | [], _ => ⟨[], rfl, by simp⟩
  | name :: fields, h => by
    obtain ⟨hname, hfields⟩ := List.forall_mem_cons.1 h
    obtain ⟨item, hitem, hread, -⟩ := constantly_item r hname b
    obtain ⟨items, hitems, hreads⟩ := constantly_items r key b fields hfields
    refine ⟨(key, item) :: items, ?_, List.forall_mem_cons.2 ⟨hread, hreads⟩⟩
    rw [KeyRule.items, hitem, hitems]
    rfl

/-- The same conditions but for their comparisons: those of one label never hold, all others always do. -/
def denying (label : Logic × Option String) (w : Where (Condition Scope)) : Where (Condition Scope) :=
  w.map fun g => (g.1, g.2.map fun e => (e.1, .plain (constantly (decide ((g.1, e.1) ≠ label)))))

theorem layout_denying (label : Logic × Option String) (w : Where (Condition Scope)) :
    (denying label w).layout = w.layout := by
  simp [denying, Where.layout, Function.comp_def]

theorem entries_denying (label : Logic × Option String) (w : Where (Condition Scope)) : (denying label w).entries =
    w.entries.map fun e => (e.1, e.2.1, .plain (constantly (decide ((e.1, e.2.1) ≠ label)))) := by
  simp [denying, Where.entries, List.flatMap_map, List.map_flatMap, Function.comp_def]

theorem exists_ne {α : Type} {l : List α} (hn : l.Nodup) (hl : 1 < l.length) (a : α) : ∃ b ∈ l, b ≠ a := by
  refine Classical.byContradiction fun hno => ?_
  have hall : ∀ b ∈ l, b = a := fun b hb => Classical.byContradiction fun hne => hno ⟨b, hb, hne⟩
  rw [List.eq_replicate_of_mem hall, List.nodup_replicate] at hn
  omega

theorem answers_constantly {r : KeyRule} {l : Logic} {field : String} {b : Bool}
    (h : ∀ name ∈ fieldsOf field, Text.startsWith (r.storedName name) "$" = false) (doc : Value) :
    ∀ a ∈ r.answers doc (l, some field, .plain (constantly b)), a = b := by
  intro a ha
  obtain ⟨name, hname, rfl⟩ := List.mem_map.1 ha
  obtain ⟨-, -, -, hholds⟩ := constantly_item r (h name hname) b
  exact hholds doc

theorem mem_denying {r : KeyRule} {w : Where (Condition Scope)} (hn : ∀ e ∈ w.entries, IsNamed e) (ho : Ordinary r w)
    {label : Logic × Option String} {e : Filed (Condition Scope)} (he : e ∈ (denying label w).entries) :
    ∃ l field, (l, some field) ∈ w.labels ∧ l ≠ .xor ∧
      (∀ name ∈ fieldsOf field, Text.startsWith (r.storedName name) "$" = false) ∧
      e = (l, some field, .plain (constantly (decide ((l, some field) ≠ label)))) := by
  rw [entries_denying] at he
  obtain ⟨e₀, he₀, rfl⟩ := List.mem_map.1 he
  obtain ⟨l, field, c, rfl⟩ := hn e₀ he₀
  exact ⟨l, field, List.mem_map.2 ⟨_, he₀, rfl⟩, ho.two_groups _ he₀, ho.plain_names _ he₀ field rfl, rfl⟩

theorem readable_denying {r : KeyRule} {w : Where (Condition Scope)} (hn : ∀ e ∈ w.entries, IsNamed e)
    (ho : Ordinary r w) (label : Logic × Option String) :
    ∃ f, r.readFilter { filter := denying label w } = .ok f := by
  refine (readable_iff r _).2 fun e he => ?_
  obtain ⟨l, field, -, -, hnames, rfl⟩ := mem_denying hn ho he
  obtain ⟨items, hitems, hreads⟩ := constantly_items r (target l field).key _ (fieldsOf field) hnames
  refine ⟨items, ?_, hreads⟩
  simp only [contributes, contribution]
  rw [plainContribution_some, hitems]

theorem isNamed_denying {r : KeyRule} {w : Where (Condition Scope)} (hn : ∀ e ∈ w.entries, IsNamed e)
    (ho : Ordinary r w) (label : Logic × Option String) : ∀ e ∈ (denying label w).entries, IsNamed e := by
  intro e he
  obtain ⟨l, field, -, -, -, rfl⟩ := mem_denying hn ho he
  exact ⟨l, field, _, rfl⟩

theorem holds_denying {r : KeyRule} {w : Where (Condition Scope)} (hn : ∀ e ∈ w.entries, IsNamed e) (ho : Ordinary r w)
    {l l' : Logic} {field field' : String} (ht : target l field = .or) (hne : (l', some field') ≠ (l, some field))
    {c : Comparison} (hmem : (l', some field', .plain c) ∈ w.entries) (ht' : target l' field' = .or) {f : Filter}
    (hf : r.readFilter { filter := denying (l, some field) w } = .ok f) (doc : Value) : f.holds doc = true := by
  have hnamed := isNamed_denying hn ho (l, some field)
  have htwo : ∀ e ∈ (denying (l, some field) w).entries, targetOf e = .and ∨ targetOf e = .or := fun e he => by
    obtain ⟨m, name, -, hm, -, rfl⟩ := mem_denying hn ho he
    exact targetOf_and_or ⟨m, name, _, rfl⟩ hm
  rw [holds_iff_answers hnamed hf]
  intro j
  cases j with
  | and =>
    intro b hb
    obtain ⟨e, he, hb⟩ := List.mem_flatMap.1 hb
    obtain ⟨he, hj⟩ := List.mem_filter.1 he
    obtain ⟨m, name, -, -, hnames, rfl⟩ := mem_denying hn ho he
    have hj : target m name = .and := of_decide_eq_true hj
    have hlabel : (m, some name) ≠ (l, some field) := by
      rintro ⟨⟩
      cases ht.symm.trans hj
    rw [answers_constantly hnames doc b hb]
    exact decide_eq_true hlabel
  | or =>
    right
    have hmem' : (l', some field', Condition.plain (constantly (decide ((l', some field') ≠ (l, some field)))))
        ∈ (denying (l, some field) w).entries := by
      rw [entries_denying]
      exact List.mem_map.2 ⟨_, hmem, rfl⟩
    refine List.mem_flatMap.2 ⟨_, List.mem_filter.2 ⟨hmem', decide_eq_true ht'⟩, ?_⟩
    obtain ⟨b, hb⟩ := List.exists_mem_of_ne_nil _ (answers_ne_nil (r := r) (hnamed _ hmem'))
    have hb' := answers_constantly (ho.plain_names _ hmem field' rfl) doc b hb
    rw [decide_eq_true hne] at hb'
    rw [← hb']
    exact hb
  | nor =>
    intro hb
    obtain ⟨e, he, -⟩ := List.mem_flatMap.1 hb
    obtain ⟨he, hj⟩ := List.mem_filter.1 he
    have hj := of_decide_eq_true hj
    rcases htwo e he with h | h <;> cases h.symm.trans hj
  | xor =>
    left
    refine List.flatMap_eq_nil_iff.2 fun e he => ?_
    obtain ⟨he, hj⟩ := List.mem_filter.1 he
    have hj := of_decide_eq_true hj
    rcases htwo e he with h | h <;> cases h.symm.trans hj

theorem listHolds_constantly {r : KeyRule} {field : String} (ht : target .and field = .or)
    (h : ∀ name ∈ fieldsOf field, Text.startsWith (r.storedName name) "$" = false) (doc : Value) :
    r.listHolds doc (some field, .plain (constantly false)) = false := by
  have hbar : Text.hasChar '|' field = true := by
    refine Classical.byContradiction fun hno => ?_
    have hno : Text.hasChar '|' field = false := by simpa using hno
    unfold target at ht
    rw [hno] at ht
    split at ht
    · contradiction
    · split at ht <;> cases ht
  simp only [listHolds, hbar, if_true, List.any_eq_false]
  intro name hname
  have hname : name ∈ fieldsOf field := by
    simp only [fieldsOf, hbar, if_true]
    exact hname
  obtain ⟨-, -, -, hholds⟩ := constantly_item r (h name hname) false
  simp [hholds doc]

/-- **Alternatives that are not separate do not keep their own meaning**, whatever the fields are: with other
comparisons on the same fields every document passes the filter, also if its conditions do not hold. -/
theorem not_keepsMeaning_of_not_separate {r : KeyRule} {w : Where (Condition Scope)}
    (hn : ∀ e ∈ w.entries, IsNamed e) (ho : Ordinary r w) (hsep : ¬ Separate w) :
    ∃ w', w'.layout = w.layout ∧ (∀ e ∈ w'.entries, IsNamed e) ∧ ∃ f, r.readFilter { filter := w' } = .ok f ∧
      ∀ doc, f.holds doc = true ∧ ¬ KeepsMeaning r w' doc := by
  obtain ⟨hall, hlen⟩ := not_or.1 hsep
  obtain ⟨x, hx, hor⟩ : ∃ x ∈ alternatives w, x.1 ≠ .or :=
    Classical.byContradiction fun h => hall fun e he => Classical.byContradiction fun hne => h ⟨e, he, hne⟩
  obtain ⟨hxw, hxt⟩ : x ∈ w.entries ∧ targetOf x = .or := by simpa [alternatives] using hx
  have hxor := ho.two_groups x hxw
  obtain ⟨l, field, c, rfl⟩ := hn x hxw
  obtain rfl : l = .and := by cases l <;> simp_all
  -- another alternative is filed beside the one of the first group, under another label
  have hdist : ((alternatives w).map fun e => (e.1, e.2.1)).Nodup :=
    List.Nodup.sublist (List.filter_sublist.map _) ho.distinct
  obtain ⟨label', hlabel', hne⟩ := exists_ne hdist (by rw [List.length_map]; omega) (Logic.and, some field)
  obtain ⟨y, hy, rfl⟩ := List.mem_map.1 hlabel'
  obtain ⟨hyw, hyt⟩ : y ∈ w.entries ∧ targetOf y = .or := by simpa [alternatives] using hy
  obtain ⟨l', field', c', rfl⟩ := hn y hyw
  obtain ⟨f, hf⟩ := readable_denying hn ho (Logic.and, some field)
  refine ⟨_, layout_denying _ w, isNamed_denying hn ho _, f, hf, fun doc => ⟨?_, ?_⟩⟩
  · exact holds_denying hn ho hxt hne hyw hyt hf doc
  · rintro ⟨hand, -⟩
    have hmem : (some field, Condition.plain (constantly false)) ∈ (denying (Logic.and, some field) w).under .and := by
      rw [Where.mem_under, entries_denying]
      refine List.mem_map.2 ⟨_, hxw, ?_⟩
      simp
    have hhold := hand _ hmem
    rw [listHolds_constantly hxt (ho.plain_names _ hxw field rfl)] at hhold
    cases hhold

/-- **Conditions on lists of fields keep their own meaning just if the alternatives are separate**: then every document
that passes the filter meets them, and otherwise there are comparisons for the same fields such that the filter lets
documents pass that do not. -/
theorem lists_keep_meaning (r : KeyRule) (q : Request) (hn : ∀ e ∈ q.filter.entries, IsNamed e) :
    (Separate q.filter → ∀ f, r.readFilter q = .ok f → ∀ doc, f.holds doc = true → KeepsMeaning r q.filter doc) ∧
    (Ordinary r q.filter → ¬ Separate q.filter →
      ∃ q' : Request, q'.filter.layout = q.filter.layout ∧ (∀ e ∈ q'.filter.entries, IsNamed e) ∧
        ∃ f, r.readFilter q' = .ok f ∧ ∀ doc, f.holds doc = true ∧ ¬ KeepsMeaning r q'.filter doc) := by
  constructor
  · intro hsep f h doc hd
    exact keepsMeaning_of_separate hn hsep h hd
  · intro ho hsep
    obtain ⟨w, hlayout, hnamed, hf⟩ := not_keepsMeaning_of_not_separate hn ho hsep
    exact ⟨{ filter := w }, hlayout, hnamed, hf⟩

def listed (other : String) : Where (Condition Scope) :=
  [(.and, [(some "a|b", .plain (.single "=" (.int 1))), (some other, .plain (.single "=" (.int 1)))])]

theorem isNamed_listed (other : String) : ∀ e ∈ (listed other).entries, IsNamed e := by
  simp only [listed, Where.entries_cons, Where.entries_nil, List.map_cons, List.map_nil, List.append_nil,
    List.forall_mem_cons, List.not_mem_nil, false_imp_iff, implies_true, and_true]
  exact ⟨⟨_, _, _, rfl⟩, ⟨_, _, _, rfl⟩⟩

theorem lists_keep_meaning_listed :
    (∀ e ∈ (listed "c&d").entries, IsNamed e) ∧ (∀ e ∈ (listed "c|d").entries, IsNamed e) ∧
    (∃ f, readFilter ⟨false, .native⟩ { filter := listed "c&d" } = .ok f ∧
      ∀ doc, f.holds doc = true → KeepsMeaning ⟨false, .native⟩ (listed "c&d") doc) ∧
    ∃ q' : Request, q'.filter.layout = (listed "c|d").layout ∧
      ∃ f, readFilter ⟨false, .native⟩ q' = .ok f ∧
        ∀ doc, f.holds doc = true ∧ ¬ KeepsMeaning ⟨false, .native⟩ q'.filter doc := by
  have hsep : Separate (listed "c&d") := .inr (by decide)
  have ho : Ordinary ⟨false, .native⟩ (listed "c|d") := by
    refine ⟨by decide, ?_, ?_⟩
    · rintro e (_ | ⟨_, _ | ⟨_, ⟨⟩⟩⟩) <;> exact Logic.noConfusion
    · rintro e (_ | ⟨_, _ | ⟨_, ⟨⟩⟩⟩) field ⟨⟩ <;> decide
  have hcross : ¬ Separate (listed "c|d") := by
    rintro (hall | hone)
    · cases hall _ (.head _)
    · revert hone
      decide
  obtain ⟨q', hlayout, -, hf⟩ :=
    (lists_keep_meaning ⟨false, .native⟩ { filter := listed "c|d" } (isNamed_listed _)).2 ho hcross
  refine ⟨isNamed_listed _, isNamed_listed _, ⟨_, rfl, ?_⟩, q', hlayout, hf⟩
  exact (lists_keep_meaning ⟨false, .native⟩ { filter := listed "c&d" } (isNamed_listed _)).1 hsep _ rfl

/-- **Two conditions between bars need not both hold.** -/
theorem lists_share_alternatives :
    ∃ f, readFilter ⟨false, .native⟩ { filter := listed "c|d" } = .ok f ∧ f.holds (.obj [("a", .int 1)]) = true ∧
      listHolds ⟨false, .native⟩ (.obj [("a", .int 1)]) (some "c|d", .plain (.single "=" (.int 1))) = false ∧
      ¬ KeepsMeaning ⟨false, .native⟩ (listed "c|d") (.obj [("a", .int 1)]) := by
  have hfalse : listHolds ⟨false, .native⟩ (.obj [("a", .int 1)]) (some "c|d", .plain (.single "=" (.int 1)))
      = false := by
    rfl
  refine ⟨_, rfl, rfl, hfalse, fun h => ?_⟩
  have hhold := h.1 (some "c|d", .plain (.single "=" (.int 1))) (.tail _ (.head _))
  rw [hfalse] at hhold
  cases hhold

end KeyRule

end DocQuery
