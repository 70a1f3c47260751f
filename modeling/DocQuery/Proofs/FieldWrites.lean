import DocQuery.Proofs.Comparators
import DocQuery.Proofs.PathsApart

/-!
# Setting and removing one field

`$set` and `$inc` put a value at their path, `$unset` takes away what is there.  All of them go through objects only,
whereas reading goes through arrays as well.  So setting leaves what is read at paths apart just if its path runs into
no array (`Change.sets_leave_others_iff`), and a removal, which leaves them all, is seen by readers and filters just if
objects alone lead to what they read at its path (`Change.unset_removes_iff`).
-/
namespace DocQuery

namespace Value

/-! ## Setting -/

/-- A path runs into an array: objects lead to one with items, and the path goes on behind it. -/
def RunsIntoArray (v : Value) (p : List String) : Prop :=
  ∃ before segment rest x xs, p = before ++ segment :: rest ∧ v.throughObjects? before = some (arr (x :: xs))

theorem PartInArray.runsIntoArray {v : Value} {p q : List String} (h : v.PartInArray p q) (hapart : Apart p q) :
    v.RunsIntoArray p := by
  obtain ⟨before, x, xs, ⟨rest, rfl⟩, hq, harr⟩ := h
  cases rest with
  | nil =>
    rw [List.append_nil] at hapart
    exact absurd hq (apart_iff.1 hapart).1
  | cons segment rest => exact ⟨before, segment, rest, x, xs, rfl, harr⟩

theorem RunsIntoArray.exists_item {v : Value} {path : String} (h : v.RunsIntoArray (Path.ofText path)) :
    ∃ other, Apart (Path.ofText path) (Path.ofText other) ∧
      v.PartInArray (Path.ofText path) (Path.ofText other) ∧ (v.path? other).isSome = true := by
  obtain ⟨before, segment, rest, x, xs, hpath, harr⟩ := h
  -- some index of the first item is not the segment by which the path goes on
  obtain ⟨index, hfirst, hdot, hne⟩ : ∃ index, Text.unsigned64? index = some 0 ∧
      Text.hasChar '.' index = false ∧ segment ≠ index := by
    by_cases hs : segment = "0"
    · exact ⟨"00", by decide, by decide, by rw [hs]; decide⟩
    · exact ⟨"0", by decide, by decide, hs⟩
  obtain ⟨other, hother⟩ : ∃ other, Path.ofText other = before ++ [index] := by
    refine Path.exists_ofText (by simp) (List.forall_mem_append.2 ⟨fun s hs => ?_, List.forall_mem_singleton.2 hdot⟩)
    have hmem : s ∈ Text.cut '.' path := by
      rw [show Text.cut '.' path = before ++ segment :: rest from hpath]
      exact List.mem_append_left _ hs
    exact Text.hasChar_of_mem_cut hmem
  refine ⟨other, ?_, ⟨before, x, xs, ?_, ?_, harr⟩, ?_⟩
  · rw [hpath, hother, apart_append_iff]
    exact .inl hne
  · exact hpath ▸ List.prefix_append before _
  · exact hother ▸ List.prefix_append before _
  · rw [path?, hother, at?_append, at?_of_throughObjects? harr, Option.bind_some, at?, step?, hfirst]
    rfl

/-- **Setting a value leaves what is read at all paths apart just if its path runs into no array.** -/
theorem setPath_leaves_others (doc v : Value) (path : String) :
    (∀ other, Apart (Path.ofText path) (Path.ofText other) → (doc.setPath path v).path? other = doc.path? other) ↔
      ¬ doc.RunsIntoArray (Path.ofText path) := by
  constructor
  · intro h hinto
    obtain ⟨other, hapart, hpart, hread⟩ := hinto.exists_item
    rw [← h other hapart, path?, setPath, at?_setAt_of_partInArray hapart hpart] at hread
    cases hread
  · exact fun h other hapart => at?_setAt hapart (fun hpart => h (hpart.runsIntoArray hapart)) v

theorem not_runsIntoArray_of_parent {v : Value} {path : String} {fs : Fields}
    (h : v.throughObjects? (Path.ofText path).dropLast = some (obj fs)) : ¬ v.RunsIntoArray (Path.ofText path) := by
  rintro ⟨before, segment, rest, x, xs, hpath, harr⟩
  rw [hpath, List.dropLast_append_of_ne_nil (List.cons_ne_nil segment rest), throughObjects?_append, harr,
    Option.bind_some] at h
  cases rest with
  | nil => cases h
  | cons next rest => cases h

/-! ## Removing -/

/-- Objects alone lead to what is read at a path, if anything is. -/
def ReadsThroughObjects (v : Value) (path : String) : Prop :=
  ∀ u, v.path? path = some u → v.throughObjects? (Path.ofText path) = some u

theorem readsThroughObjects_of_parent {v : Value} {path : String} {fs : Fields}
    (h : v.throughObjects? (Path.ofText path).dropLast = some (obj fs)) : v.ReadsThroughObjects path := by
  intro u hu
  rw [path?, ofText_eq_concat, at?_append, at?_of_throughObjects? h, Option.bind_some] at hu
  rw [ofText_eq_concat, throughObjects?_append, h, Option.bind_some]
  exact hu

theorem dropField_eq_self {v : Value} {key : String} (h : v.field? key = none) : dropField key v = v := by
  cases v with
  | obj fs => rw [dropField, Keyed.swapErase_of_get?_none h]
  | _ => rfl

theorem removePath_eq_self {v : Value} {path : String} (h : v.throughObjects? (Path.ofText path) = none) :
    v.removePath path = v := by
  refine modifyAt_eq_self fun u hu => dropField_eq_self ?_
  rw [ofText_eq_concat, throughObjects?_append, hu, Option.bind_some, throughObjects?] at h
  cases hfield : u.field? ((Path.ofText path).getLastD "") with
  | none => rfl
  | some w =>
    rw [hfield] at h
    cases h

theorem path?_removePath {v w : Value} {path : String} (hv : v.WellFormed)
    (h : v.throughObjects? (Path.ofText path) = some w) : (v.removePath path).path? path = none := by
  rw [ofText_eq_concat, throughObjects?_append, Option.bind_eq_some_iff] at h
  obtain ⟨u, hu, hlast⟩ := h
  have hnew : (v.removePath path).at? (Path.ofText path).dropLast =
      some (dropField ((Path.ofText path).getLastD "") u) := at?_of_throughObjects? (throughObjects?_modifyAt_self hu)
  rw [path?, ofText_eq_concat, at?_append, hnew, Option.bind_some]
  obtain ⟨x, hx, -⟩ := Option.bind_eq_some_iff.1 hlast
  cases hv.throughObjects? hu with
  | obj hk _ => rw [dropField, at?_obj, Keyed.get?_swapErase hk, if_pos rfl, Option.bind_none]
  | _ => cases hx

theorem readsThroughObjects_of_some {v w : Value} {path : String} (h : v.throughObjects? (Path.ofText path) = some w) :
    v.ReadsThroughObjects path := fun u hu => by
  rw [← hu, path?, at?_of_throughObjects? h]
  exact h

theorem removePath_of_not_readsThroughObjects {v : Value} {path : String} (h : ¬ v.ReadsThroughObjects path) :
    v.removePath path = v := by
  cases hthrough : v.throughObjects? (Path.ofText path) with
  | none => exact removePath_eq_self hthrough
  | some w => exact absurd (readsThroughObjects_of_some hthrough) h

/-- **A removal leaves nothing to be read just if objects alone lead to what was read.** -/
theorem path?_removePath_eq_none {v : Value} (hv : v.WellFormed) (path : String) :
    (v.removePath path).path? path = none ↔ v.ReadsThroughObjects path := by
  cases h : v.throughObjects? (Path.ofText path) with
  | some w => exact iff_of_true (path?_removePath hv h) (readsThroughObjects_of_some h)
  | none =>
    rw [removePath_eq_self h, ReadsThroughObjects, h]
    simp [Option.eq_none_iff_forall_ne_some]

theorem path?_removePath_apart {v : Value} (hv : v.WellFormed) {path other : String}
    (h : Apart (Path.ofText path) (Path.ofText other)) : (v.removePath path).path? other = v.path? other := by
  rw [ofText_eq_concat path] at h
  exact at?_dropAt h hv

end Value

/-! ## Filters for presence -/

namespace Filter

def presence (path : String) : Value := .single path (.single "$exists" (.bool true))

theorem holds_presence {path : String} {f : Filter} (h : ofValue (presence path) = .ok f) (doc : Value) :
    f.holds doc = (doc.path? path).isSome := by
  rw [presence, Value.single, ofValue_obj, ofFields_cons, bind_eq_ok] at h
  obtain ⟨clause, hclause, hrest⟩ := h
  obtain ⟨rest, hrest, rfl⟩ := map_eq_ok.1 hrest
  cases hrest
  have hfield : clause = .field path [.present true] := by
    unfold readField at hclause
    split at hclause
    · cases hclause
    · split at hclause
      · cases hclause
      · split at hclause
        · cases hclause
        · exact (Except.ok.inj hclause).symm
  rw [hfield, holds_cons, holds_nil, Bool.and_true, clauseHolds, Comparator.allHold_one, Test.holds, beq_true]

end Filter

namespace Change

open Value (Apart)

def acting (op path : String) (operand : Value) : Value := .single op (.single path operand)

theorem apply_acting {op : String} (hop : Text.startsWith op "$" = true) (path : String) (operand doc : Value) :
    apply (acting op path operand) doc = match operate op path operand doc with
      | .ok new => (new, .ok (new != doc))
      | .error e => (doc, .error e) := by
  have hops : isOperators [(op, .single path operand)] = true := by simp [isOperators, hop]
  rw [acting, Value.single, apply, if_pos hops, Value.single, run, operateAll]
  cases operate op path operand doc with
  | ok new => rfl
  | error e => rfl

/-- **Setting a value, and adding to one, leaves what is read at a path apart, unless the two part in an array**: then
nothing is left there.  So it leaves what is read at all paths apart just if its path runs into no array. -/
theorem sets_leave_others_iff (doc : Value) (path : String) :
    (∀ operand, ∃ changed, apply (acting "$set" path operand) doc = (doc.setPath path operand, .ok changed)) ∧
    (∀ step new changed, apply (acting "$inc" path step) doc = (new, .ok changed) →
      ∃ sum, new = doc.setPath path sum ∧ (doc.path? path).elim (some step) (add? · step) = some sum) ∧
    ∀ v,
      (∀ other, Apart (Path.ofText path) (Path.ofText other) →
        (¬ doc.PartInArray (Path.ofText path) (Path.ofText other) →
          (doc.setPath path v).path? other = doc.path? other) ∧
        (doc.PartInArray (Path.ofText path) (Path.ofText other) → (doc.setPath path v).path? other = none)) ∧
      ((∀ other, Apart (Path.ofText path) (Path.ofText other) →
        (doc.setPath path v).path? other = doc.path? other) ↔ ¬ doc.RunsIntoArray (Path.ofText path)) := by
  refine ⟨fun operand => ⟨_, apply_acting (by decide) path operand doc⟩, fun step new changed h => ?_,
    fun v => ⟨fun other hapart => ⟨fun hpart => Value.at?_setAt hapart hpart v,
      fun hpart => Value.at?_setAt_of_partInArray hapart hpart v⟩, Value.setPath_leaves_others doc v path⟩⟩
  rw [apply_acting (by decide)] at h
  have hone : operate "$inc" path step doc = increment doc path step := rfl
  rw [hone, increment] at h
  cases hread : doc.path? path with
  | none =>
    rw [hread] at h
    cases h
    exact ⟨step, rfl, rfl⟩
  | some v =>
    simp only [hread] at h
    cases hsum : add? v step with
    | none =>
      rw [hsum] at h
      cases h
    | some sum =>
      rw [hsum] at h
      cases h
      exact ⟨sum, rfl, hsum⟩

def profile : Value :=
  .obj [("_id", .int 1), ("address", .obj [("city", .str "Pécs"), ("zip", .int 7621)]),
    ("items", .arr [.int 1, .int 2])]

theorem wellFormed_profile : profile.WellFormed := by
  refine .obj (by decide) fun e he => ?_
  simp only [List.mem_cons, List.not_mem_nil, or_false] at he
  rcases he with rfl | rfl | rfl
  · exact .int 1
  · refine .obj (by decide) fun e he => ?_
    rcases List.mem_pair.1 he with rfl | rfl
    · exact .str _
    · exact .int _
  · refine .arr fun x hx => ?_
    rcases List.mem_pair.1 hx with rfl | rfl
    · exact .int 1
    · exact .int 2

/-- Objects lead to the address, so that neither the rest of it nor the items change with the city. -/
theorem sets_leave_others_iff_profile :
    (∀ v, (profile.setPath "address.city" v).path? "address.zip" = some (.int 7621)) ∧
    ∀ v, (profile.setPath "address.city" v).path? "items.1" = some (.int 2) := by
  have hpath : Path.ofText "address.city" = ["address", "city"] := by decide
  have hobject : ¬ profile.RunsIntoArray (Path.ofText "address.city") :=
    Value.not_runsIntoArray_of_parent (by rw [hpath]; rfl)
  have hothers := fun v => ((sets_leave_others_iff profile "address.city").2.2 v).2.2 hobject
  have hzip : Apart (Path.ofText "address.city") (Path.ofText "address.zip") := .inr (.inl (by decide))
  have hitems : Apart (Path.ofText "address.city") (Path.ofText "items.1") := .inl (by decide)
  exact ⟨fun v => hothers v "address.zip" hzip, fun v => hothers v "items.1" hitems⟩

/-- **Setting an item, or adding to it, makes an object of the array**: its other items are gone. -/
theorem set_item_drops_others :
    let listed : Value := .obj [("_id", .int 1), ("a", .arr [.int 1, .int 2])]
    Apart (Path.ofText "a.0") (Path.ofText "a.1") ∧
    listed.path? "a.0" = some (.int 1) ∧ listed.path? "a.1" = some (.int 2) ∧
    apply (acting "$set" "a.0" (.int 9)) listed = (listed.setPath "a.0" (.int 9), .ok true) ∧
    (listed.setPath "a.0" (.int 9)).path? "a.1" = none ∧
    apply (acting "$inc" "a.0" (.int 1)) listed = (listed.setPath "a.0" (.int 2), .ok true) ∧
    (listed.setPath "a.0" (.int 2)).path? "a.1" = none :=
  ⟨.inr (.inl (by decide)), rfl, rfl, rfl, rfl, rfl, rfl⟩

/-- **What is removed is gone for readers and filters just if objects alone lead to what they read there; what is read
at paths apart stays.** -/
theorem unset_removes_iff {doc : Value} (hd : doc.WellFormed) (path : String) (operand : Value) :
    ∃ new changed, apply (acting "$unset" path operand) doc = (new, .ok changed) ∧
      (new.path? path = none ↔ doc.ReadsThroughObjects path) ∧
      (∀ f, Filter.ofValue (Filter.presence path) = .ok f → (f.holds new = false ↔ doc.ReadsThroughObjects path)) ∧
      (¬ doc.ReadsThroughObjects path → new = doc) ∧
      ∀ other, ¬ Path.ofText path <+: Path.ofText other → ¬ Path.ofText other <+: Path.ofText path →
        new.path? other = doc.path? other := by
  have hgone := Value.path?_removePath_eq_none hd path
  refine ⟨doc.removePath path, _, apply_acting (by decide) path operand doc, hgone, fun f hf => ?_,
    Value.removePath_of_not_readsThroughObjects,
    fun other hbehind hbefore => Value.path?_removePath_apart hd (Value.apart_iff.2 ⟨hbehind, hbefore⟩)⟩
  rw [Filter.holds_presence hf, ← hgone, Option.isSome_eq_false_iff, Option.isNone_iff_eq_none]

theorem unset_removes_iff_profile : profile.WellFormed ∧ profile.path? "address.city" = some (.str "Pécs") ∧
    ∃ new changed, apply (acting "$unset" "address.city" (.str "")) profile = (new, .ok changed) ∧
      new.path? "address.city" = none ∧ new.path? "address.zip" = some (.int 7621) ∧
      ∃ f, Filter.ofValue (Filter.presence "address.city") = .ok f ∧ f.holds new = false := by
  obtain ⟨new, changed, happly, hgone, hfilter, -, hothers⟩ :=
    unset_removes_iff wellFormed_profile "address.city" (.str "")
  have hpath : Path.ofText "address.city" = ["address", "city"] := by decide
  have hobject : profile.ReadsThroughObjects "address.city" :=
    Value.readsThroughObjects_of_parent (by rw [hpath]; rfl)
  exact ⟨wellFormed_profile, rfl, new, changed, happly, hgone.2 hobject, hothers "address.zip" (by decide) (by decide),
    _, rfl, (hfilter _ rfl).2 hobject⟩

/-- **A field of an item stays when it is removed**, and filters see it. -/
theorem unset_misses_item_field :
    let boxed : Value := .obj [("_id", .int 1), ("a", .arr [.obj [("b", .int 1)]])]
    boxed.at? (Path.ofText "a.0.b").dropLast = some (.obj [("b", .int 1)]) ∧
    apply (acting "$unset" "a.0.b" (.str "")) boxed = (boxed, .ok false) ∧
    boxed.path? "a.0.b" = some (.int 1) ∧
    ∃ f, Filter.ofValue (Filter.presence "a.0.b") = .ok f ∧ f.holds boxed = true :=
  ⟨rfl, rfl, rfl, _, rfl, rfl⟩

end Change

end DocQuery
