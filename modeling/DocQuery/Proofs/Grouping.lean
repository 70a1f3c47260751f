import DocQuery.Pipeline.Group
import DocQuery.Proofs.Change
import DocQuery.Proofs.Run
import Mathlib.Data.List.Forall2
import Mathlib.Data.List.Induction
import Mathlib.Data.List.Nodup

/-!
# Groups

Grouping goes through the documents once and files each of them with those whose keys have the same text.  Under a text
stand the documents with that text, in their order, beside the key of the first of them (`get?_groups`), and the texts
stand in the order in which they were first met (`keys_groups`).  So the groups partition the documents
(`groups_partition`).
-/
namespace DocQuery

/-! ## Lists that interleave -/

/-- Lists interleave to a list that takes the head of one of them again and again until all are empty. -/
inductive Interleave {α : Type} : List (List α) → List α → Prop
  | done {lists : List (List α)} (h : ∀ l ∈ lists, l = []) : Interleave lists []
  | next {before behind : List (List α)} {a : α} {l whole : List α} (h : Interleave (before ++ l :: behind) whole) :
      Interleave (before ++ (a :: l) :: behind) (a :: whole)

/-- **The members of a list with one label each interleave to the list**, if every label occurs once. -/
theorem interleave_filter {α κ : Type} [DecidableEq κ] {label : α → κ} {labels : List κ} (hn : labels.Nodup) :
    ∀ {whole : List α}, (∀ a ∈ whole, label a ∈ labels) →
      Interleave (labels.map fun k => whole.filter (label · = k)) whole
  | [], _ => .done fun l hl => by
    obtain ⟨k, -, rfl⟩ := List.mem_map.1 hl
    rfl
  | a :: whole, h => by
    obtain ⟨ha, hrest⟩ := List.forall_mem_cons.1 h
    have hinter := interleave_filter hn hrest
    obtain ⟨before, behind, rfl⟩ := List.append_of_mem ha
    obtain ⟨-, hbehind, hbefore⟩ := List.nodup_append.1 hn
    -- only the list of the first member's label has the member, at its head
    have hother : ∀ {ks : List κ}, label a ∉ ks → (ks.map fun k => (a :: whole).filter (label · = k)) =
        ks.map fun k => whole.filter (label · = k) := fun hks => List.map_congr_left fun k hk =>
      List.filter_cons_of_neg (by simpa using fun heq : label a = k => hks (heq ▸ hk))
    have hown : (a :: whole).filter (label · = label a) = a :: whole.filter (label · = label a) :=
      List.filter_cons_of_pos (by simp)
    rw [List.map_append, List.map_cons] at hinter ⊢
    rw [hother fun hmem => hbefore _ hmem _ List.mem_cons_self rfl, hother (List.nodup_cons.1 hbehind).1, hown]
    exact .next hinter

namespace Grouping

/-! ## Filing -/

def keyText (g : Grouping) (doc : Value) : String := (g.key.ofDocument doc).text

def membersOf (g : Grouping) (docs : List Value) (text : String) : List Value := docs.filter (g.keyText · = text)

section

variable (g : Grouping)

theorem membersOf_append (docs : List Value) (doc : Value) (text : String) :
    g.membersOf (docs ++ [doc]) text =
      if g.keyText doc = text then g.membersOf docs text ++ [doc] else g.membersOf docs text := by
  rw [membersOf, List.filter_append]
  by_cases h : g.keyText doc = text
  · simp [h, membersOf]
  · simp [h, membersOf]

theorem mem_membersOf {docs : List Value} {doc : Value} {text : String} :
    doc ∈ g.membersOf docs text ↔ doc ∈ docs ∧ g.keyText doc = text := by
  simp [membersOf]

theorem groups_append (docs : List Value) (doc : Value) : g.groups (docs ++ [doc]) = g.file (g.groups docs) doc := by
  simp [groups, List.foldl_append]

theorem file_eq (groups : Keyed String (Value × List Value)) (doc : Value) :
    g.file groups doc = Keyed.set groups (g.keyText doc)
      (((Keyed.get? groups (g.keyText doc)).elim (g.key.ofDocument doc) Prod.fst),
        ((Keyed.get? groups (g.keyText doc)).elim [] Prod.snd) ++ [doc]) := by
  simp only [file, ← keyText.eq_def]
  cases Keyed.get? groups (g.keyText doc) with
  | none => rfl
  | some e => rfl

/-- **Under a text stand the documents whose keys have it**, beside the key of the first. -/
theorem get?_groups (docs : List Value) (text : String) : Keyed.get? (g.groups docs) text =
    (g.membersOf docs text).head?.map fun first => (g.key.ofDocument first, g.membersOf docs text) := by
  induction docs using List.reverseRecOn with
  | nil => rfl
  | append_singleton docs doc ih =>
    rw [groups_append, file_eq, Keyed.get?_set, membersOf_append]
    by_cases h : g.keyText doc = text
    · subst h
      rw [if_pos rfl, if_pos rfl, ih]
      cases g.membersOf docs (g.keyText doc) with
      | nil => rfl
      | cons first members => rfl
    · rw [if_neg h, if_neg h, ih]

theorem nodup_keys_groups (docs : List Value) : (Keyed.keys (g.groups docs)).Nodup := by
  induction docs using List.reverseRecOn with
  | nil => exact List.nodup_nil
  | append_singleton docs doc ih =>
    rw [groups_append, file_eq]
    exact Keyed.nodup_keys_set ih _ _

theorem isSome_get?_groups (docs : List Value) (text : String) :
    (Keyed.get? (g.groups docs) text).isSome = true ↔ text ∈ docs.map g.keyText := by
  rw [get?_groups, Option.isSome_map, List.isSome_head?]
  simp [membersOf]

/-- **The texts stand in the order in which they were first met.** -/
theorem keys_groups (docs : List Value) : Keyed.keys (g.groups docs) = (docs.map g.keyText).eraseDups := by
  induction docs using List.reverseRecOn with
  | nil => rfl
  | append_singleton docs doc ih =>
    have hsome := g.isSome_get?_groups docs (g.keyText doc)
    rw [groups_append, file_eq, Keyed.keys_set, ih, List.map_append, List.map_singleton, List.eraseDups_append]
    generalize docs.map g.keyText = texts at hsome
    by_cases h : g.keyText doc ∈ texts
    · rw [if_pos (hsome.2 h), List.removeAll, List.filter_cons_of_neg (by simpa using h)]
      simp
    · rw [if_neg fun hs => h (hsome.1 hs), List.removeAll, List.filter_cons_of_pos (by simpa using h)]
      simp [List.eraseDups_cons]

def members (docs : List Value) : List (List Value) := (g.groups docs).map fun e => e.2.2

theorem mem_groups {docs : List Value} {e : String × Value × List Value} (he : e ∈ g.groups docs) :
    e.2.2 = g.membersOf docs e.1 ∧ ∃ first, e.2.2.head? = some first ∧ e.2.1 = g.key.ofDocument first := by
  have hget := (Keyed.mem_iff_get? (g.nodup_keys_groups docs)).1 he
  rw [get?_groups] at hget
  obtain ⟨first, hfirst, heq⟩ := Option.map_eq_some_iff.1 hget
  rw [← heq]
  exact ⟨rfl, first, hfirst, rfl⟩

/-- **The keys of the groups have the texts of the documents' keys, each once.** -/
theorem text_groups (docs : List Value) :
    (g.groups docs).map (fun e => e.2.1.text) = (docs.map g.keyText).eraseDups := by
  rw [← keys_groups, Keyed.keys]
  refine List.map_congr_left fun e he => ?_
  obtain ⟨hmembers, first, hfirst, hkey⟩ := g.mem_groups he
  have hmem : first ∈ g.membersOf docs e.1 := hmembers ▸ List.mem_of_head? hfirst
  rw [hkey, ← (g.mem_membersOf.1 hmem).2]
  rfl

theorem members_eq (docs : List Value) :
    g.members docs = (Keyed.keys (g.groups docs)).map (g.membersOf docs) := by
  rw [members, Keyed.keys, List.map_map]
  exact List.map_congr_left fun e he => (g.mem_groups he).1

theorem getElem?_members {docs : List Value} {i : Nat} {ms : List Value} : (g.members docs)[i]? = some ms ↔
    ∃ text, (Keyed.keys (g.groups docs))[i]? = some text ∧ g.membersOf docs text = ms := by
  rw [members_eq, List.getElem?_map, Option.map_eq_some_iff]

theorem mem_members {docs : List Value} {ms : List Value} : ms ∈ g.members docs ↔
    ∃ text, text ∈ docs.map g.keyText ∧ g.membersOf docs text = ms := by
  rw [members_eq, List.mem_map]
  simp only [Keyed.mem_keys, isSome_get?_groups]

/-- **The groups interleave to the documents.** -/
theorem interleave_members (docs : List Value) : Interleave (g.members docs) docs := by
  rw [members_eq]
  refine interleave_filter (g.nodup_keys_groups docs) fun d hd => ?_
  rw [Keyed.mem_keys, isSome_get?_groups]
  exact List.mem_map_of_mem hd

/-- **Every document is in exactly one of the groups.** -/
theorem existsUnique_members {docs : List Value} {d : Value} (hd : d ∈ docs) :
    ∃! i : Nat, ∃ ms, (g.members docs)[i]? = some ms ∧ d ∈ ms := by
  have hmem : g.keyText d ∈ Keyed.keys (g.groups docs) := by
    rw [Keyed.mem_keys, isSome_get?_groups]
    exact List.mem_map_of_mem hd
  obtain ⟨i, hi, htext⟩ := List.mem_iff_getElem.1 hmem
  refine ⟨i, ⟨_, g.getElem?_members.2 ⟨_, List.getElem?_eq_some_iff.2 ⟨hi, htext⟩, rfl⟩,
    g.mem_membersOf.2 ⟨hd, rfl⟩⟩, ?_⟩
  rintro j ⟨ms, hms, hdms⟩
  obtain ⟨text, hj, rfl⟩ := g.getElem?_members.1 hms
  obtain ⟨hlt, hget⟩ := List.getElem?_eq_some_iff.1 hj
  have hsame : (Keyed.keys (g.groups docs))[j] = (Keyed.keys (g.groups docs))[i] := by
    rw [hget, htext, (g.mem_membersOf.1 hdms).2]
  exact (g.nodup_keys_groups docs).getElem_inj_iff.1 hsame

/-- **Documents share a group just if their keys have one text.** -/
theorem share_iff {docs : List Value} {d e : Value} (hd : d ∈ docs) (he : e ∈ docs) :
    (∃ ms ∈ g.members docs, d ∈ ms ∧ e ∈ ms) ↔ g.keyText d = g.keyText e := by
  constructor
  · rintro ⟨ms, hms, hdms, hems⟩
    obtain ⟨text, -, rfl⟩ := g.mem_members.1 hms
    rw [(g.mem_membersOf.1 hdms).2, (g.mem_membersOf.1 hems).2]
  · intro h
    exact ⟨_, g.mem_members.2 ⟨_, List.mem_map_of_mem he, rfl⟩, g.mem_membersOf.2 ⟨hd, h⟩,
      g.mem_membersOf.2 ⟨he, rfl⟩⟩

end

/-! ## Rows -/

theorem accumulatorsOf_ok : ∀ {fs : Fields} {as : List (String × Accumulator)}, accumulatorsOf fs = .ok as →
    Keyed.keys as = (Keyed.keys fs).filter (· ≠ "_id") ∧
      ∀ name v, name ≠ "_id" → (name, v) ∈ fs → ∃ a, Accumulator.ofValue v = .ok a ∧ (name, a) ∈ as
  | [], as, h => by
    cases h
    exact ⟨rfl, fun _ _ _ hmem => by cases hmem⟩
  | (field, w) :: fs, as, h => by
    rw [accumulatorsOf] at h
    by_cases hid : field = "_id"
    · rw [if_pos hid] at h
      obtain ⟨hkeys, hmem⟩ := accumulatorsOf_ok h
      refine ⟨?_, fun name v hne hv => ?_⟩
      · rw [hkeys, Keyed.keys, Keyed.keys, List.map_cons, List.filter_cons_of_neg (by simpa using hid)]
      · rcases List.mem_cons.1 hv with heq | hv
        · exact absurd ((Prod.mk.inj heq).1.trans hid) hne
        · exact hmem name v hne hv
    · rw [if_neg hid, bind_eq_ok] at h
      obtain ⟨a, ha, h⟩ := h
      obtain ⟨rest, hrest, h⟩ := bind_eq_ok.1 h
      cases h
      obtain ⟨hkeys, hmem⟩ := accumulatorsOf_ok hrest
      refine ⟨?_, fun name v hne hv => ?_⟩
      · have hkeys : rest.map Prod.fst = (fs.map Prod.fst).filter (· ≠ "_id") := hkeys
        rw [Keyed.keys, Keyed.keys, List.map_cons, List.map_cons, hkeys,
          List.filter_cons_of_pos (by simpa using hid)]
      · rcases List.mem_cons.1 hv with heq | hv
        · obtain ⟨rfl, rfl⟩ := Prod.mk.inj heq
          exact ⟨a, ha, List.mem_cons_self⟩
        · obtain ⟨b, hb, hin⟩ := hmem name v hne hv
          exact ⟨b, hb, List.mem_cons_of_mem _ hin⟩

section

variable {spec : Value} {g : Grouping}

/-- **A row has the key under `_id`, and each result under its name.** -/
theorem field?_row (hs : spec.WellFormed) (hg : ofValue spec = .ok g) (key : Value) (docs : List Value) :
    (g.row key docs).field? "_id" = some key ∧
      ∀ name v, name ≠ "_id" → spec.field? name = some v → ∃ a, Accumulator.ofValue v = .ok a ∧
        (g.row key docs).field? name = some (a.compute docs) := by
  cases hs with
  | @obj fs hn hwf =>
    obtain ⟨k, hk, hg⟩ := bind_eq_ok.1 hg
    obtain ⟨as, has, hg⟩ := bind_eq_ok.1 hg
    cases hg
    obtain ⟨hkeys, hmem⟩ := accumulatorsOf_ok has
    have hresults : Keyed.keys (as.map fun e => (e.1, e.2.compute docs)) = (Keyed.keys fs).filter (· ≠ "_id") := by
      rw [← hkeys, Keyed.keys, Keyed.keys, List.map_map]
      rfl
    have hnodup : (Keyed.keys (("_id", key) :: as.map fun e => (e.1, e.2.compute docs))).Nodup := by
      refine List.nodup_cons.2 ⟨fun hid => ?_, ?_⟩
      · have hid : "_id" ∈ Keyed.keys (as.map fun e => (e.1, e.2.compute docs)) := hid
        rw [hresults] at hid
        simpa using (List.mem_filter.1 hid).2
      · have hrest := hn.filter (· ≠ "_id")
        rw [← hresults] at hrest
        exact hrest
    have hrow : (row { key := k, accumulators := as } key docs).fields? =
        some (("_id", key) :: as.map fun e => (e.1, e.2.compute docs)) := by
      rw [row, Keyed.setAll_eq_append hnodup]
      rfl
    refine ⟨by rw [Value.field?, hrow]; rfl, fun name v hne hv => ?_⟩
    obtain ⟨a, ha, hin⟩ := hmem name v hne (Keyed.mem_of_get? hv)
    refine ⟨a, ha, ?_⟩
    rw [Value.field?, hrow]
    exact (Keyed.mem_iff_get? hnodup).1 (List.mem_cons_of_mem _ (List.mem_map_of_mem hin))
  | _ => cases hg

theorem pathReference_str {what ref path : String} (h : pathReference what (.str ref) = .ok path) :
    path = Text.dropLeading '$' ref := by
  rw [pathReference] at h
  split at h
  · cases h
    rfl
  · cases h

/-- A row tells of some documents: it has the key of the first of them, and under a name that the specification gives to
the first or the last value of a field, what the first or the last of them has there. -/
structure IsRowOf (spec : Value) (k : GroupKey) (members : List Value) (row : Value) : Prop where
  key : ∃ first, members.head? = some first ∧ row.field? "_id" = some (k.ofDocument first)
  first : ∀ name ref, name ≠ "_id" → spec.field? name = some (.single "$first" (.str ref)) →
    row.field? name = some (Value.orNull (members.head?.bind (·.path? (Text.dropLeading '$' ref))))
  last : ∀ name ref, name ≠ "_id" → spec.field? name = some (.single "$last" (.str ref)) →
    row.field? name = some (Value.orNull (members.getLast?.bind (·.path? (Text.dropLeading '$' ref))))

theorem isRowOf_row (hs : spec.WellFormed) (hg : ofValue spec = .ok g) {docs : List Value}
    {e : String × Value × List Value} (he : e ∈ g.groups docs) : IsRowOf spec g.key e.2.2 (g.row e.2.1 e.2.2) := by
  obtain ⟨hid, hresult⟩ := field?_row hs hg e.2.1 e.2.2
  obtain ⟨-, first, hfirst, hkey⟩ := g.mem_groups he
  refine ⟨⟨first, hfirst, hkey ▸ hid⟩, fun name ref hne hspec => ?_, fun name ref hne hspec => ?_⟩
  all_goals
    obtain ⟨a, ha, hrow⟩ := hresult name _ hne hspec
    obtain ⟨path, hpath, rfl⟩ := map_eq_ok.1 (show (pathReference _ (.str ref)).map _ = .ok a from ha)
    rw [hrow, pathReference_str hpath]
    rfl

theorem field?_id_apply (hs : spec.WellFormed) (hg : ofValue spec = .ok g) (docs : List Value) :
    (g.apply docs).map (·.field? "_id") = ((g.groups docs).map fun e => e.2.1).map some := by
  rw [apply, List.map_map, List.map_map]
  exact List.map_congr_left fun e _ => (field?_row hs hg e.2.1 e.2.2).1

/-- **The groups of a grouping partition the documents.**  Its rows have the texts of the documents' keys, each once,
in the order in which they are first met, and each row tells of one group.  Every document is in exactly one group,
together with those whose keys have the same text, and the groups interleave to the documents. -/
theorem groups_partition (hs : spec.WellFormed) (hg : ofValue spec = .ok g) (docs : List Value) :
    ((g.apply docs).map fun row => (row.field? "_id").map Value.text) = ((docs.map g.keyText).eraseDups).map some ∧
      List.Forall₂ (IsRowOf spec g.key) (g.members docs) (g.apply docs) ∧
      (∀ d ∈ docs, ∃! i : Nat, ∃ ms, (g.members docs)[i]? = some ms ∧ d ∈ ms) ∧
      (∀ d ∈ docs, ∀ e ∈ docs, (∃ ms ∈ g.members docs, d ∈ ms ∧ e ∈ ms) ↔ g.keyText d = g.keyText e) ∧
      Interleave (g.members docs) docs ∧ (docs = [] → g.apply docs = []) := by
  refine ⟨?_, ?_, fun d => g.existsUnique_members, fun d hd e => g.share_iff hd, g.interleave_members docs,
    fun h => by rw [h]; rfl⟩
  · have hids := congrArg (List.map (Option.map Value.text)) (field?_id_apply hs hg docs)
    simp only [List.map_map] at hids
    rw [← g.text_groups, List.map_map]
    exact hids
  · rw [members, apply, List.forall₂_map_left_iff, List.forall₂_map_right_iff, List.forall₂_same]
    exact fun e he => isRowOf_row hs hg he

end

def byCity : Value :=
  .obj [("_id", .str "$city"), ("count", .single "$sum" (.int 1)), ("first", .single "$first" (.str "$name")),
    ("last", .single "$last" (.str "$name"))]

def cityGrouping : Grouping where
  key := .path "city"
  accumulators := [("count", .count (Float.ofInt 1)), ("first", .first "name"), ("last", .last "name")]

def travellers : List Value :=
  [.obj [("name", .str "Ann"), ("city", .str "Rome")], .obj [("name", .str "Bob")],
    .obj [("name", .str "Cid"), ("city", .str "Rome")]]

theorem wellFormed_byCity : byCity.WellFormed := by
  refine .obj (by decide) ?_
  simp only [List.forall_mem_cons]
  exact ⟨.str _, .single (.int 1), .single (.str _), .single (.str _), fun _ he => by cases he⟩

theorem groups_partition_travellers : byCity.WellFormed ∧ ofValue byCity = .ok cityGrouping ∧
    Interleave [[travellers[0], travellers[2]], [travellers[1]]] travellers ∧
    ∃ rome other, cityGrouping.apply travellers = [rome, other] ∧
      rome.field? "_id" = some (.str "Rome") ∧ rome.field? "first" = some (.str "Ann") ∧
      rome.field? "last" = some (.str "Cid") ∧
      other.field? "_id" = some .null ∧ other.field? "last" = some (.str "Bob") := by
  have hmembers : cityGrouping.members travellers = [[travellers[0], travellers[2]], [travellers[1]]] := rfl
  obtain ⟨-, hrows, -, -, hinter, -⟩ := groups_partition wellFormed_byCity (g := cityGrouping) rfl travellers
  rw [hmembers] at hrows hinter
  obtain ⟨rome, rest, hrome, hrest, heq⟩ := List.forall₂_cons_left_iff.1 hrows
  obtain ⟨other, none, hother, hnone, rfl⟩ := List.forall₂_cons_left_iff.1 hrest
  obtain rfl := List.forall₂_nil_left_iff.1 hnone
  refine ⟨wellFormed_byCity, rfl, hinter, rome, other, heq, ?_, ?_, ?_, ?_, ?_⟩
  · obtain ⟨first, hfirst, hid⟩ := hrome.key
    cases hfirst
    exact hid
  · exact hrome.first "first" "$name" (by decide) rfl
  · exact hrome.last "last" "$name" (by decide) rfl
  · obtain ⟨first, hfirst, hid⟩ := hother.key
    cases hfirst
    exact hid
  · exact hother.last "last" "$name" (by decide) rfl

end Grouping

end DocQuery
