import DocQuery.Projection
import DocQuery.Proofs.Paths

/-!
# Leaving fields out

A projection that only leaves out goes through the keys of a document and drops those that it lists
(`Value.project_excluding`).  A path with a dot is no such key, so what is at its end stays, unless the field that the
path starts at is listed too (`Value.excluded_paths_absent_iff`); a key that has a dot itself is dropped, although the
path of its name starts elsewhere.
-/
namespace DocQuery

namespace Value

/-- What stands in a projection document for leaving out: `false`, or a number that is zero. -/
def LeavesOut (v : Value) : Prop := v = bool false ∨ ∃ x, v.number? = some x ∧ (x == 0) = true

theorem action_eq_leaveOut {v : Value} (h : v.LeavesOut) : Projection.action v = .leaveOut := by
  obtain rfl | ⟨x, hx, hzero⟩ := h
  · rfl
  · cases v with
    | int n =>
      cases hx
      rw [Projection.action, if_pos hzero]
    | float y =>
      cases hx
      rw [Projection.action, if_pos hzero]
    | _ => cases hx

end Value

namespace Projection

variable {projection : Fields}

theorem isExclusion_ofFields (h : ∀ e ∈ projection, e.2.LeavesOut) : (ofFields projection).isExclusion = true := by
  refine List.all_eq_true.2 fun e he => ?_
  obtain ⟨e', he', rfl⟩ := List.mem_map.1 he
  simp only [Value.action_eq_leaveOut (h e' he')]

theorem leavesOut_ofFields (h : ∀ e ∈ projection, e.2.LeavesOut) (key : String) :
    (ofFields projection).leavesOut key = decide (key ∈ Keyed.keys projection) := by
  have hget : Keyed.get? (ofFields projection) key = (Keyed.get? projection key).map Projection.action :=
    Keyed.get?_mapValues (fun _ v => Projection.action v) projection key
  rw [leavesOut, hget]
  cases hkey : Keyed.get? projection key with
  | none => simp [Keyed.mem_keys, hkey]
  | some v =>
    rw [Option.map_some, Value.action_eq_leaveOut (h _ (Keyed.mem_of_get? hkey))]
    simp [Keyed.mem_keys, hkey]

end Projection

namespace Value

section

variable {projection : Fields}

/-- **Only leaving out drops the fields whose keys are listed**, and keeps the others in their order. -/
theorem project_excluding (hne : projection ≠ []) (h : ∀ e ∈ projection, e.2.LeavesOut) (fs : Fields) :
    (obj fs).project projection = obj (fs.filter fun e => !decide (e.1 ∈ Keyed.keys projection)) := by
  rw [project, if_neg (by simpa using hne)]
  simp only [Projection.apply, Projection.isExclusion_ofFields h, if_true, Projection.leavesOut_ofFields h]

theorem field?_excluding (hne : projection ≠ []) (h : ∀ e ∈ projection, e.2.LeavesOut) (fs : Fields) (key : String) :
    ((obj fs).project projection).field? key = if key ∈ Keyed.keys projection then none else Keyed.get? fs key := by
  have hget := Keyed.get?_filter_keys (fun k => !decide (k ∈ Keyed.keys projection)) fs key
  rw [project_excluding hne h]
  refine Eq.trans hget ?_
  by_cases hkey : key ∈ Keyed.keys projection
  · rw [if_neg (by simpa using hkey), if_pos hkey]
  · rw [if_pos (by simpa using hkey), if_neg hkey]

/-- **What is at a path is left out just if the field that the path starts at is listed.** -/
theorem path?_excluding (hne : projection ≠ []) (h : ∀ e ∈ projection, e.2.LeavesOut) (fs : Fields)
    {path first : String} (hpath : (Path.ofText path).head? = some first) :
    ((obj fs).project projection).path? path =
      if first ∈ Keyed.keys projection then none else (obj fs).path? path := by
  obtain ⟨rest, hsegments⟩ := List.head?_eq_some_iff.1 hpath
  have hfield := field?_excluding hne h fs first
  rw [project_excluding hne h] at hfield ⊢
  rw [path?, path?, hsegments, at?_obj, at?_obj, show Keyed.get? (fs.filter _) first = _ from hfield]
  split <;> rfl

def ListsStart (projection : Fields) (path : String) : Prop :=
  ∃ first ∈ Keyed.keys projection, (Path.ofText path).head? = some first

theorem path?_excluding_eq_none_iff (hne : projection ≠ []) (h : ∀ e ∈ projection, e.2.LeavesOut) {fs : Fields}
    {path : String} (hlisted : path ∈ Keyed.keys projection)
    (hleads : (obj fs).throughObjects? (Path.ofText path) ≠ none) :
    ((obj fs).project projection).path? path = none ↔
      (Text.hasChar '.' path = true → ListsStart projection path) := by
  obtain ⟨first, rest, hpath⟩ := ofText_eq_cons path
  have hhead : (Path.ofText path).head? = some first := by rw [hpath, List.head?_cons]
  obtain ⟨v, hv⟩ := Option.ne_none_iff_exists'.1 hleads
  have hat : (obj fs).path? path = some v := at?_of_throughObjects? hv
  rw [path?_excluding hne h fs hhead, hat]
  constructor
  · intro habsent _
    by_cases hfirst : first ∈ Keyed.keys projection
    · exact ⟨first, hfirst, hhead⟩
    · rw [if_neg hfirst] at habsent
      cases habsent
  · intro hstart
    suffices hfirst : first ∈ Keyed.keys projection from if_pos hfirst
    cases hdot : Text.hasChar '.' path with
    | true =>
      obtain ⟨_, hfirst, heq⟩ := hstart hdot
      exact Option.some.inj (hhead.symm.trans heq) ▸ hfirst
    | false =>
      rw [Path.ofText_single hdot] at hpath
      exact (List.cons.inj hpath).1 ▸ hlisted

theorem others_unchanged_iff (hne : projection ≠ []) (h : ∀ e ∈ projection, e.2.LeavesOut) (fs : Fields) :
    (∀ key, (∀ path ∈ Keyed.keys projection, (Path.ofText path).head? ≠ some key) →
        ((obj fs).project projection).field? key = Keyed.get? fs key) ↔
      ∀ key ∈ Keyed.keys projection, Text.hasChar '.' key = true → Keyed.get? fs key = none := by
  constructor
  · intro hothers key hlisted hdot
    have hsame := hothers key fun path _ hhead => by
      rw [Path.undotted_of_head? hhead] at hdot
      cases hdot
    rw [field?_excluding hne h, if_pos hlisted] at hsame
    exact hsame.symm
  · intro hdotted key hothers
    rw [field?_excluding hne h]
    by_cases hlisted : key ∈ Keyed.keys projection
    · rw [if_pos hlisted]
      cases hdot : Text.hasChar '.' key with
      | true => exact (hdotted key hlisted hdot).symm
      | false =>
        refine absurd ?_ (hothers key hlisted)
        rw [Path.ofText_single hdot, List.head?_cons]
    · rw [if_neg hlisted]

/-- **Excluded paths are absent, and other fields unchanged, just as far as no dots come in.**  A key is dropped if it
is listed, and only then.  So nothing is left at the listed paths that lead through objects just if for each of them
with a dot the field that it starts at is listed as well.  And the fields that no listed path starts at are unchanged
just if no key with a dot is listed that the document has. -/
theorem excluded_paths_absent_iff (fs : Fields) (hne : projection ≠ []) (h : ∀ e ∈ projection, e.2.LeavesOut) :
    (∀ key, ((obj fs).project projection).field? key =
      if key ∈ Keyed.keys projection then none else Keyed.get? fs key) ∧
    ((∀ path ∈ Keyed.keys projection, (obj fs).throughObjects? (Path.ofText path) ≠ none →
        ((obj fs).project projection).path? path = none) ↔
      ∀ path ∈ Keyed.keys projection, (obj fs).throughObjects? (Path.ofText path) ≠ none →
        Text.hasChar '.' path = true → ListsStart projection path) ∧
    ((∀ key, (∀ path ∈ Keyed.keys projection, (Path.ofText path).head? ≠ some key) →
        ((obj fs).project projection).field? key = Keyed.get? fs key) ↔
      ∀ key ∈ Keyed.keys projection, Text.hasChar '.' key = true → Keyed.get? fs key = none) :=
  ⟨field?_excluding hne h fs, forall₃_congr fun _ hlisted hleads => path?_excluding_eq_none_iff hne h hlisted hleads,
    others_unchanged_iff hne h fs⟩

end

def account : Fields := [("_id", .int 1), ("login", .obj [("name", .str "ann"), ("secret", .str "x")]), ("age", .int 7)]

theorem excluded_paths_absent_iff_account :
    [("login.secret", int 0), ("login", bool false)] ≠ [] ∧
    (∀ e ∈ [("login.secret", int 0), ("login", bool false)], e.2.LeavesOut) ∧
    ((obj account).throughObjects? (Path.ofText "login.secret")).isSome = true ∧
    ((obj account).project [("login.secret", int 0), ("login", bool false)]).path? "login.secret" = none ∧
    ((obj account).project [("login.secret", int 0), ("login", bool false)]).field? "age" = some (.int 7) := by
  have hne : [("login.secret", int 0), ("login", bool false)] ≠ [] := List.cons_ne_nil _ _
  have hout : ∀ e ∈ [("login.secret", int 0), ("login", bool false)], e.2.LeavesOut :=
    List.forall_mem_cons.2 ⟨.inr ⟨_, rfl, rfl⟩, List.forall_mem_singleton.2 (.inl rfl)⟩
  obtain ⟨hfield, habsent, -⟩ := excluded_paths_absent_iff account hne hout
  refine ⟨hne, hout, rfl, habsent.2 ?_ "login.secret" List.mem_cons_self (by decide), hfield "age"⟩
  intro path hlisted _ hdot
  obtain rfl | rfl : path = "login.secret" ∨ path = "login" := by simpa [Keyed.keys] using hlisted
  · exact ⟨"login", by decide, by decide⟩
  · exact absurd hdot (by decide)

/-- **A path with a dot that is to be left out is still there.** -/
theorem dotted_exclusion_leaks :
    ((obj account).throughObjects? (Path.ofText "login.secret")).isSome = true ∧
    (obj account).project [("login.secret", int 0)] = obj account ∧
    ((obj account).project [("login.secret", int 0)]).path? "login.secret" = some (.str "x") := by
  refine ⟨rfl, rfl, rfl⟩

end Value

end DocQuery
