import DocQuery.Proofs.Conditions
import DocQuery.Proofs.Faults
import DocQuery.Proofs.Histories
import Mathlib.Data.List.Induction

/-!
# Conditions by the history of their calls

What is filed under a combinator depends on the calls under it alone, and of these only on the filings that nothing
undid later: a group is what they make of an empty one (`Group.foldl_step`).  So a field has the condition of its last
filing since its last removal, and stands where the first of the surviving ones was (`Group.follows_foldl_step`,
`Request.filter_follows_calls`).
-/
namespace DocQuery

namespace Group

variable {α : Type}

def names (g : Group α) : List String := g.filterMap Prod.fst

def positional (g : Group α) : List α := (g.filter (·.1 = none)).map Prod.snd

/-! ## Histories -/

inductive Event (α : Type) where
  | filed (field : Option String) (c : α)
  | removed (name : String)
  | cleared

def step (g : Group α) : Event α → Group α
  | .filed field c => g.set field c
  | .removed name => g.remove name
  | .cleared => []

/-- A group that filings and removals make of an empty one. -/
def Made (g : Group α) : Prop := ∃ es : List (Event α), es.foldl step [] = g

def Event.undoes : Event α → Option String → Bool
  | filed _ _, _ => false
  | removed name, field => field = some name
  | cleared, _ => true

/-- The filings that no later event undoes. -/
def surviving : List (Event α) → Group α
  | [] => []
  | .filed field c :: es => if es.any (·.undoes field) then surviving es else (field, c) :: surviving es
  | .removed _ :: es => surviving es
  | .cleared :: es => surviving es

def Event.Concerns : Event α → String → Prop
  | filed field _, name => field = some name
  | removed name', name => name' = name
  | cleared, _ => True

/-- A condition was the last one filed on a field, and the field has not been removed since. -/
def LastFiled (es : List (Event α)) (name : String) (c : α) : Prop :=
  ∃ before after, es = before ++ .filed (some name) c :: after ∧ ∀ e ∈ after, ¬ e.Concerns name

def firsts (seen : List String) : List (Option String) → List (Option String)
  | [] => []
  | none :: r => none :: firsts seen r
  | some name :: r => if name ∈ seen then firsts seen r else some name :: firsts (name :: seen) r

/-- A group is what its history tells: no field is there twice, a field has the condition that was filed last since its
last removal, or none, and stands where the first of its surviving filings was; what has no field is kept in order. -/
structure Follows (g : Group α) (es : List (Event α)) : Prop where
  distinct : g.names.Nodup
  condition : ∀ name c, g.get? name = some c ↔ LastFiled es name c
  order : g.map Prod.fst = firsts [] ((surviving es).map Prod.fst)
  positional : g.positional = (surviving es).positional

/-! ## Surviving filings -/

theorem surviving_append_singleton (e : Event α) : ∀ es : List (Event α),
    surviving (es ++ [e]) = (surviving es).filter (fun x => !e.undoes x.1) ++ surviving [e]
  | [] => rfl
  | .filed field c :: es => by
    rw [List.cons_append, surviving, surviving, List.any_append, surviving_append_singleton e es, List.any_cons,
      List.any_nil, Bool.or_false]
    cases es.any (·.undoes field) with
    | true => rfl
    | false =>
      cases h : e.undoes field with
      | true => simp [h]
      | false => simp [h]
  | .removed _ :: es => surviving_append_singleton e es
  | .cleared :: es => surviving_append_singleton e es

theorem setAll_append (g es es' : Group α) : setAll g (es ++ es') = setAll (setAll g es) es' := List.foldl_append

theorem foldl_step_filed (es g : Group α) : (es.map fun e => .filed e.1 e.2).foldl step g = setAll g es :=
  List.foldl_map

theorem setAll_cons (g : Group α) (e : Option String × α) (es : Group α) :
    setAll g (e :: es) = setAll (g.set e.1 e.2) es := rfl

theorem remove_set_self (g : Group α) (name : String) (c : α) : (g.set (some name) c).remove name = g.remove name :=
  Keyed.erase_set_self g (some name) c

theorem remove_set_of_ne (g : Group α) {field : Option String} {name : String} (h : field ≠ some name) (c : α) :
    (g.set field c).remove name = (g.remove name).set field c := by
  cases field with
  | none => exact Keyed.erase_append_singleton g c h
  | some _ => exact Keyed.erase_set_of_ne g c h

theorem remove_setAll (name : String) : ∀ (es g : Group α),
    (setAll g es).remove name = setAll (g.remove name) (es.filter (·.1 ≠ some name))
  | [], _ => rfl
  | (field, c) :: es, g => by
    rw [setAll_cons, remove_setAll name es]
    by_cases h : field = some name
    · rw [h, remove_set_self, List.filter_cons_of_neg (by simp)]
    · rw [remove_set_of_ne g h, List.filter_cons_of_pos (by simpa using h), setAll_cons]

/-- **A group is what the surviving filings make of an empty one.** -/
theorem foldl_step (es : List (Event α)) : es.foldl step [] = setAll [] (surviving es) := by
  -- from the end: the last event acts on all that the others have left, and decides which of their filings survive
  induction es using List.reverseRecOn with
  | nil => rfl
  | append_singleton es e ih =>
    rw [List.foldl_append, List.foldl_cons, List.foldl_nil, ih, surviving_append_singleton]
    cases e with
    | filed field c =>
      have hkept : (surviving es).filter (fun x => !(Event.filed field c).undoes x.1) = surviving es :=
        List.filter_eq_self.2 fun _ _ => rfl
      rw [hkept, setAll_append]
      rfl
    | removed name =>
      have hkept : (surviving es).filter (fun x => !(Event.removed name : Event α).undoes x.1) ++
          surviving [(Event.removed name : Event α)] = (surviving es).filter (·.1 ≠ some name) := by
        simp [Event.undoes, surviving]
      rw [hkept, step, remove_setAll]
      rfl
    | cleared => simp [Event.undoes, surviving, step, setAll]

/-! ## What filings leave -/

theorem get?_set (g : Group α) (field : Option String) (c : α) (name : String) :
    (g.set field c).get? name = if field = some name then some c else g.get? name := by
  cases field with
  | none => simp [set, get?, Keyed.get?_append, Keyed.get?_cons]
  | some _ => exact Keyed.get?_set g _ _ c

theorem mem_names {g : Group α} {name : String} : name ∈ g.names ↔ some name ∈ Keyed.keys g := by
  simp [names, Keyed.keys]

theorem names_eq (g : Group α) : g.names = (Keyed.keys g).filterMap id := by
  rw [names, Keyed.keys, List.filterMap_map]
  rfl

theorem names_set_some (g : Group α) (name : String) (c : α) :
    (g.set (some name) c).names = if name ∈ g.names then g.names else g.names ++ [name] := by
  have hmem : name ∈ g.names ↔ (Keyed.get? g (some name)).isSome = true := mem_names.trans Keyed.mem_keys
  rw [names_eq, set, Keyed.keys_set]
  by_cases h : (Keyed.get? g (some name)).isSome = true
  · rw [if_pos h, if_pos (hmem.2 h), names_eq]
  · rw [if_neg h, if_neg fun hn => h (hmem.1 hn), List.filterMap_append, ← names_eq]
    rfl

theorem nodup_names_setAll : ∀ {es g : Group α}, g.names.Nodup → (setAll g es).names.Nodup
  | [], _, h => h
  | (none, c) :: es, g, h => by
    have hnames : (g.set none c).names.Nodup := by simpa [names, set] using h
    rw [setAll_cons]
    exact nodup_names_setAll hnames
  | (some name, c) :: es, g, h => by
    have hnames : (g.set (some name) c).names.Nodup := by
      rw [names_set_some]
      split
      · exact h
      · rename_i hnew
        exact List.nodup_append.2 ⟨h, List.nodup_singleton _, fun a ha b hb heq =>
          hnew (List.mem_singleton.1 hb ▸ heq ▸ ha)⟩
    rw [setAll_cons]
    exact nodup_names_setAll hnames

theorem firsts_congr : ∀ {fields : List (Option String)} {seen seen' : List String},
    (∀ name, name ∈ seen ↔ name ∈ seen') → firsts seen fields = firsts seen' fields
  | [], _, _, _ => rfl
  | none :: r, _, _, h => by rw [firsts, firsts, firsts_congr h]
  | some name :: r, seen, seen', h => by
    have hrest : firsts (name :: seen) r = firsts (name :: seen') r :=
      firsts_congr fun name' => by rw [List.mem_cons, List.mem_cons, h]
    rw [firsts, firsts, firsts_congr h, hrest]
    simp only [h]

/-- **Filings append the fields that are new, each where it comes first.** -/
theorem map_fst_setAll : ∀ (es g : Group α),
    (setAll g es).map Prod.fst = g.map Prod.fst ++ firsts g.names (es.map Prod.fst)
  | [], g => by simp [setAll, firsts]
  | (none, c) :: es, g => by
    have hset : g.set none c = g ++ [(none, c)] := rfl
    have hnames : (g ++ [(none, c)]).names = g.names := by simp [names]
    rw [setAll_cons, map_fst_setAll es, hset, hnames]
    simp [firsts]
  | (some name, c) :: es, g => by
    have hkeys := Keyed.keys_set g (some name) c
    rw [setAll_cons, map_fst_setAll es, names_set_some, List.map_cons, firsts]
    by_cases h : name ∈ g.names
    · rw [if_pos (Keyed.mem_keys.1 (mem_names.1 h))] at hkeys
      rw [if_pos h, if_pos h]
      exact congrArg (· ++ _) hkeys
    · rw [if_neg fun hget => h (mem_names.2 (Keyed.mem_keys.2 hget))] at hkeys
      have hseen : firsts (g.names ++ [name]) (es.map Prod.fst) = firsts (name :: g.names) (es.map Prod.fst) :=
        firsts_congr fun name' => by simp [or_comm]
      have hfields : (g.set (some name) c).map Prod.fst = g.map Prod.fst ++ [some name] := hkeys
      rw [if_neg h, if_neg h, hseen, hfields, List.append_assoc, List.singleton_append]

theorem positional_setAll : ∀ (es g : Group α), (setAll g es).positional = g.positional ++ positional es
  | [], g => (List.append_nil _).symm
  | (none, c) :: es, g => by
    have hset : g.set none c = g ++ [(none, c)] := rfl
    rw [setAll_cons, positional_setAll es, hset]
    simp [positional]
  | (some name, c) :: es, g => by
    have hfilter : (g.set (some name) c).filter (·.1 = none) = g.filter (·.1 = none) :=
      Keyed.filter_set_of_ne g c (by simp)
    have hset : (g.set (some name) c).positional = g.positional := congrArg (List.map Prod.snd) hfilter
    rw [setAll_cons, positional_setAll es, hset]
    simp [positional]

theorem setAll_eq_append : ∀ {es g : Group α}, (g ++ es).names.Nodup → setAll g es = g ++ es
  | [], g, _ => (List.append_nil g).symm
  | (field, c) :: es, g, h => by
    have hset : g.set field c = g ++ [(field, c)] := by
      cases field with
      | none => rfl
      | some name =>
        have hnew : some name ∉ Keyed.keys g := fun hn => by
          rw [names, List.filterMap_append] at h
          exact (List.nodup_append.1 h).2.2 name (mem_names.2 hn) name (by simp) rfl
        exact Keyed.set_of_get?_none (by simpa [Keyed.mem_keys] using hnew) c
    have hassoc : g ++ (field, c) :: es = (g ++ [(field, c)]) ++ es := by simp
    rw [setAll_cons, hset, hassoc]
    exact setAll_eq_append (hassoc ▸ h)

/-! ## The last filing -/

theorem lastFiled_iff_since {es : List (Event α)} {name : String} {c : α} :
    LastFiled es name c ↔ Since (fun _ e => e = .filed (some name) c) (fun _ e => e.Concerns name) es := by
  rw [since_iff]
  constructor
  · rintro ⟨before, after, heq, hafter⟩
    exact ⟨before, _, after, heq, rfl, hafter⟩
  · rintro ⟨before, _, after, heq, rfl, hafter⟩
    exact ⟨before, after, heq, hafter⟩

theorem lastFiled_append_singleton {es : List (Event α)} {e : Event α} {name : String} {c : α} :
    LastFiled (es ++ [e]) name c ↔ e = .filed (some name) c ∨ ¬ e.Concerns name ∧ LastFiled es name c := by
  rw [lastFiled_iff_since, since_append_singleton, ← lastFiled_iff_since]

theorem get?_foldl_step (es : List (Event α)) (name : String) (c : α) :
    (es.foldl step []).get? name = some c ↔ LastFiled es name c := by
  induction es using List.reverseRecOn with
  | nil => exact iff_of_false nofun fun ⟨before, after, h, _⟩ => by simp at h
  | append_singleton es e ih =>
    rw [List.foldl_append, List.foldl_cons, List.foldl_nil, lastFiled_append_singleton, ← ih]
    cases e with
    | filed field c' =>
      rw [step, get?_set]
      by_cases h : field = some name
      · simp [h, Event.Concerns]
      · simp [h, Event.Concerns]
    | removed name' =>
      by_cases h : name' = name
      · subst h
        -- a removal takes the first entry of the field, but among filings it takes all of them
        have hnone : ((es.foldl step []).remove name').get? name' = none := by
          rw [foldl_step, remove_setAll]
          refine Keyed.get?_eq_none.2 fun x hx => ?_
          rcases mem_setAll hx with hx | hx
          · cases hx
          · simpa using (List.mem_filter.1 hx).2
        simp [step, hnone, Event.Concerns]
      · have hkept : ((es.foldl step []).remove name').get? name = (es.foldl step []).get? name :=
          Keyed.get?_erase_ne _ (by simpa using h)
        simp [step, hkept, h, Event.Concerns]
    | cleared => simp [step, get?, Event.Concerns]

/-- **A group is what its history tells.** -/
theorem follows_foldl_step (es : List (Event α)) : (es.foldl step []).Follows es where
  distinct := by
    rw [foldl_step]
    exact nodup_names_setAll List.nodup_nil
  condition := get?_foldl_step es
  order := by
    rw [foldl_step, map_fst_setAll]
    rfl
  positional := by
    rw [foldl_step, positional_setAll]
    rfl

theorem Made.setAll_eq {g : Group α} (h : g.Made) : setAll [] g = g := by
  obtain ⟨es, rfl⟩ := h
  exact setAll_eq_append (follows_foldl_step es).distinct

end Group

namespace Where

variable {α : Type}

theorem under_cons (e : Logic × Group α) (w : Where α) (l : Logic) :
    under (e :: w) l = (if e.1 = l then e.2 else []) ++ w.under l := by
  rw [under, entries_cons, List.filter_append, List.map_append, under]
  by_cases h : e.1 = l
  · simp [h, List.filter_map, Function.comp_def]
  · simp [h, List.filter_map, Function.comp_def]

theorem under_eq : ∀ {w : Where α}, (Keyed.keys w).Nodup → ∀ l, w.under l = (Keyed.get? w l).getD []
  | [], _, _ => rfl
  | (l', g) :: w, hn, l => by
    obtain ⟨hl, hn⟩ := List.nodup_cons.1 hn
    rw [under_cons, under_eq hn, Keyed.get?_cons]
    by_cases h : l' = l
    · subst h
      have hnone : Keyed.get? w l' = none :=
        Keyed.get?_eq_none.2 fun e he heq => hl (List.mem_map.2 ⟨e, he, heq⟩)
      simp [hnone]
    · simp [h]

theorem under_set_self {w : Where α} (hn : (Keyed.keys w).Nodup) (l : Logic) (g : Group α) :
    under (Keyed.set w l g) l = g := by
  rw [under_eq (Keyed.nodup_keys_set hn l g), Keyed.get?_set_self, Option.getD_some]

theorem under_set_of_ne {l l' : Logic} (h : l ≠ l') (g : Group α) : ∀ w : Where α,
    under (Keyed.set w l g) l' = w.under l'
  | [] => by simp [Keyed.set, under_cons, h]
  | (k, g') :: w => by
    rw [Keyed.set]
    split
    · rename_i hk
      simp [under_cons, hk, h]
    · rw [under_cons, under_cons, under_set_of_ne h g w]

theorem file_eq_set (w : Where α) (l : Logic) {es : Group α} (h : es ≠ []) :
    w.file l es = Keyed.set w l (Group.setAll ((Keyed.get? w l).getD []) es) := by
  obtain ⟨e, es, rfl⟩ := List.exists_cons_of_ne_nil h
  rfl

end Where

/-! ## Calls on a request -/

inductive FilterEdit where
  | add (call : FilterCall Scope)
  | remove (logic : Logic) (name : String)
  | replace (logic : Logic) (g : Group (Condition Scope))

namespace FilterEdit

def logic : FilterEdit → Logic
  | add call => call.logic
  | remove l _ => l
  | replace l _ => l

/-- What a call does to the group of its combinator.  Replacing clears it and files the entries of the new one. -/
def events : FilterEdit → List (Group.Event (Condition Scope))
  | add call => call.entries.map fun e => .filed e.1 e.2
  | remove _ name => [.removed name]
  | replace _ g => .cleared :: g.map fun e => .filed e.1 e.2

def history (l : Logic) (edits : List FilterEdit) : List (Group.Event (Condition Scope)) :=
  edits.flatMap fun e => if e.logic = l then e.events else []

theorem history_cons (l : Logic) (e : FilterEdit) (edits : List FilterEdit) :
    history l (e :: edits) = (if e.logic = l then e.events else []) ++ history l edits := rfl

end FilterEdit

namespace Request

open FilterEdit (history)

def edit (q : Request) : FilterEdit → Request
  | .add call => q.addFilter call
  | .remove l name => q.removeFilter name l
  | .replace l g => q.replaceGroup l g

variable {q : Request}

theorem filter_edit (q : Request) (e : FilterEdit) :
    (q.edit e).filter = q.filter ∨ ∃ g, (q.edit e).filter = Keyed.set q.filter e.logic g := by
  cases e with
  | add call =>
    show q.filter.file call.logic call.entries = q.filter ∨ ∃ g, q.filter.file call.logic call.entries = _
    by_cases hes : call.entries = []
    · exact .inl (by rw [hes]; rfl)
    · exact .inr ⟨_, Where.file_eq_set _ _ hes⟩
  | remove l name =>
    show q.filter.remove l name = q.filter ∨ ∃ g, q.filter.remove l name = _
    unfold Where.remove
    split
    · exact .inr ⟨_, rfl⟩
    · exact .inl rfl
  | replace l g => exact .inr ⟨g, rfl⟩

theorem keys_edit (hn : (Keyed.keys q.filter).Nodup) (e : FilterEdit) : (Keyed.keys (q.edit e).filter).Nodup := by
  rcases filter_edit q e with h | ⟨g, h⟩
  · rwa [h]
  · rw [h]
    exact Keyed.nodup_keys_set hn _ _

theorem under_edit_of_ne (q : Request) (e : FilterEdit) {l : Logic} (hl : e.logic ≠ l) :
    (q.edit e).filter.under l = q.filter.under l := by
  rcases filter_edit q e with h | ⟨g, h⟩
  · rw [h]
  · rw [h, Where.under_set_of_ne hl]

/-- **A call does to its group what it is to do.** -/
theorem under_edit (hn : (Keyed.keys q.filter).Nodup) (e : FilterEdit)
    (he : ∀ l g, e = .replace l g → g.Made) :
    (q.edit e).filter.under e.logic = e.events.foldl Group.step (q.filter.under e.logic) := by
  cases e with
  | add call =>
    show (q.filter.file call.logic call.entries).under call.logic = _
    rw [FilterEdit.events, Group.foldl_step_filed]
    by_cases hes : call.entries = []
    · rw [hes]
      rfl
    · rw [Where.file_eq_set _ _ hes, Where.under_set_self hn, FilterEdit.logic, Where.under_eq hn]
  | remove l name =>
    show (q.filter.remove l name).under l = ((q.filter.under l).remove name)
    rw [Where.under_eq hn]
    unfold Where.remove
    cases hg : Keyed.get? q.filter l with
    | none =>
      rw [Where.under_eq hn, hg]
      rfl
    | some g => exact Where.under_set_self hn _ _
  | replace l g =>
    show Where.under (Keyed.set q.filter l g) l = _
    rw [Where.under_set_self hn, FilterEdit.events, List.foldl_cons, Group.foldl_step_filed]
    exact (he l g rfl).setAll_eq.symm

theorem under_foldl_edit (l : Logic) : ∀ {edits : List FilterEdit} {q : Request},
    (Keyed.keys q.filter).Nodup → (∀ l g, .replace l g ∈ edits → g.Made) →
    (edits.foldl edit q).filter.under l = (history l edits).foldl Group.step (q.filter.under l)
  | [], _, _, _ => rfl
  | e :: edits, q, hn, h => by
    have hrest : ∀ l g, FilterEdit.replace l g ∈ edits → g.Made := fun l g hg => h l g (List.mem_cons_of_mem _ hg)
    rw [List.foldl_cons, under_foldl_edit l (keys_edit hn e) hrest, FilterEdit.history_cons, List.foldl_append]
    by_cases hl : e.logic = l
    · subst hl
      rw [if_pos rfl, under_edit hn e fun l g he => h l g (he ▸ List.mem_cons_self)]
    · rw [if_neg hl, under_edit_of_ne q e hl, List.foldl_nil]

/-- **Conditions follow the history of the calls under their combinator**: the last filing of a field wins, in the place
of the first one that survives.  No call touches the group of another combinator. -/
theorem filter_follows_calls {edits : List FilterEdit} (h : ∀ l g, .replace l g ∈ edits → g.Made) :
    (∀ l, ((edits.foldl edit {}).filter.under l).Follows (history l edits)) ∧
    ∀ (q : Request) (e : FilterEdit) (l : Logic), e.logic ≠ l → (q.edit e).filter.under l = q.filter.under l := by
  refine ⟨fun l => ?_, fun q e l hl => under_edit_of_ne q e hl⟩
  have hunder : (edits.foldl edit {}).filter.under l = (history l edits).foldl Group.step [] :=
    under_foldl_edit (q := {}) l List.nodup_nil h
  rw [hunder]
  exact Group.follows_foldl_step _

def revisions : List FilterEdit :=
  [.add (.name .and "age" (some (.str ">")) (some (.int 18))), .add (.name .and "name" (some (.str "a")) none),
    .add (.name .and "this.a > 1" none none), .replace .or [(some "flag", .plain (.eq (.bool true)))],
    .add (.batch .and [("age", .plain (.single "<" (.int 65))), ("tags", .plain (.eq .null))]), .remove .and "name",
    .add (.name .and "rank" (some (.str ">=")) (some (.int 3))),
    .add (.name .and "score" (some (.arr [.str "in", .str "1,2"])) none),
    .add (.name .and "name" (some (.str "not null")) none)]

theorem filter_follows_calls_revisions : (∀ l g, .replace l g ∈ revisions → g.Made) ∧
    ((revisions.foldl edit {}).filter.under .and).map Prod.fst =
      [some "age", none, some "tags", some "rank", some "score", some "name"] ∧
    ((revisions.foldl edit {}).filter.under .and).get? "age" = some (.plain (.single "<" (.int 65))) ∧
    ((revisions.foldl edit {}).filter.under .and).get? "rank" = some (.plain (.single ">=" (.int 3))) ∧
    ((revisions.foldl edit {}).filter.under .and).get? "score" = some (.plain (.single "in" (.str "1,2"))) ∧
    ((revisions.foldl edit {}).filter.under .and).get? "name" = some (.plain (.single "not null" (.str ""))) := by
  have hmade : ∀ l g, .replace l g ∈ revisions → g.Made := by
    intro l g hg
    obtain ⟨-, rfl⟩ : l = .or ∧ g = [(some "flag", .plain (.eq (.bool true)))] := by simpa [revisions] using hg
    exact ⟨[.filed (some "flag") (.plain (.eq (.bool true)))], rfl⟩
  have hfollows := (filter_follows_calls hmade).1 .and
  refine ⟨hmade, hfollows.order.trans (by decide), (hfollows.condition _ _).2 ⟨[_, _, _], [_, _, _, _, _], rfl, ?_⟩,
    (hfollows.condition _ _).2 ⟨[_, _, _, _, _, _], [_, _], rfl, ?_⟩,
    (hfollows.condition _ _).2 ⟨[_, _, _, _, _, _, _], [_], rfl, ?_⟩,
    (hfollows.condition _ _).2 ⟨[_, _, _, _, _, _, _, _], [], rfl, ?_⟩⟩ <;> simp [Group.Event.Concerns]

end Request

end DocQuery
