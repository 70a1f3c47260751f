import DocQuery.Proofs.Paths
import DocQuery.Store.Change

/-!
# The array at a path

An operator on arrays edits the array to which objects lead, or an empty one that it puts where nothing is read.  What
is read but is no such array stops it (`Change.editArray_ok`) or stays as it is (`Change.shrinkArray_other`).
-/
namespace DocQuery.Change

section

variable {doc v : Value} {path : String} {xs : List Value}

theorem withTarget_absent (h : doc.path? path = none) : withTarget doc path = doc.setPath path (.arr []) := by
  rw [withTarget, h]

theorem withTarget_present (h : doc.path? path = some v) : withTarget doc path = doc := by
  rw [withTarget, h]

theorem target?_setPath (doc : Value) (path : String) (xs : List Value) :
    target? (doc.setPath path (.arr xs)) path = some xs := by
  rw [target?, Value.setPath, Value.throughObjects?_setAt_self]
  rfl

theorem throughObjects?_setItems (h : doc.throughObjects? (Path.ofText path) = some v) (xs : List Value) :
    (setItems doc path xs).throughObjects? (Path.ofText path) = some (.arr xs) :=
  Value.throughObjects?_modifyAt_self h

theorem target?_eq_some : target? doc path = some xs ↔ doc.throughObjects? (Path.ofText path) = some (.arr xs) := by
  rw [target?, Option.bind_eq_some_iff]
  constructor
  · rintro ⟨u, hu, hitems⟩
    cases u with
    | arr ys => rw [hu, Option.some.inj hitems]
    | _ => cases hitems
  · exact fun h => ⟨_, h, rfl⟩

theorem path?_of_array (h : doc.throughObjects? (Path.ofText path) = some (.arr xs)) :
    doc.path? path = some (.arr xs) := Value.at?_of_throughObjects? h

theorem setItems_setPath (doc : Value) (path : String) (xs ys : List Value) :
    setItems (doc.setPath path (.arr xs)) path ys = doc.setPath path (.arr ys) :=
  Value.modifyAt_setAt _ _ doc _

theorem setItems_eq_self (h : doc.throughObjects? (Path.ofText path) = some (.arr xs)) : setItems doc path xs = doc :=
  Value.modifyAt_eq_self fun _ hu => Option.some.inj (h.symm.trans hu)

theorem editArray_absent (h : doc.path? path = none) (op : String) (edit : List Value → List Value) :
    editArray op path doc edit = .ok (doc.setPath path (.arr (edit []))) := by
  simp only [editArray, withTarget_absent h, target?_setPath, setItems_setPath]

theorem editArray_array (h : doc.throughObjects? (Path.ofText path) = some (.arr xs)) (op : String)
    (edit : List Value → List Value) : editArray op path doc edit = .ok (setItems doc path (edit xs)) := by
  simp only [editArray, withTarget_present (path?_of_array h), target?_eq_some.2 h]

/-- **An edit that succeeds edits the array that is read at its path**, or the empty one where nothing is read. -/
theorem editArray_ok {op : String} {edit : List Value → List Value} {new : Value}
    (h : editArray op path doc edit = .ok new) : ∃ old,
      (doc.path? path = some (.arr old) ∨ doc.path? path = none ∧ old = []) ∧
      new.throughObjects? (Path.ofText path) = some (.arr (edit old)) := by
  cases hread : doc.path? path with
  | none =>
    rw [editArray_absent hread] at h
    cases h
    exact ⟨[], .inr ⟨rfl, rfl⟩, Value.throughObjects?_setAt_self _ _ _⟩
  | some v =>
    cases htarget : target? doc path with
    | none =>
      simp only [editArray, withTarget_present hread, htarget] at h
      cases h
    | some xs =>
      have harray := target?_eq_some.1 htarget
      rw [editArray_array harray] at h
      cases h
      rw [← hread]
      exact ⟨xs, .inl (path?_of_array harray), throughObjects?_setItems harray _⟩

theorem shrinkArray_absent (h : doc.path? path = none) (edit : List Value → List Value) :
    shrinkArray path doc edit = doc.setPath path (.arr (edit [])) := by
  simp only [shrinkArray, withTarget_absent h, target?_setPath, setItems_setPath]

theorem shrinkArray_array (h : doc.throughObjects? (Path.ofText path) = some (.arr xs))
    (edit : List Value → List Value) : shrinkArray path doc edit = setItems doc path (edit xs) := by
  simp only [shrinkArray, withTarget_present (path?_of_array h), target?_eq_some.2 h]

theorem shrinkArray_other (h : doc.path? path = some v)
    (hno : ∀ xs, doc.throughObjects? (Path.ofText path) ≠ some (.arr xs)) (edit : List Value → List Value) :
    shrinkArray path doc edit = doc := by
  have htarget : target? doc path = none :=
    Option.eq_none_iff_forall_ne_some.2 fun xs hxs => hno xs (target?_eq_some.1 hxs)
  simp only [shrinkArray, withTarget_present h, htarget]

end

end DocQuery.Change
