import DocQuery.Proofs.Change

/-!
# Objects stay objects

A path has a segment, so what an operator does it does inside a document: whatever the operands are, and whatever goes
wrong on the way, an object is left of an object (`Change.isObj_apply`).  Another document in the place is an object
too, and so is what an upsert starts from (`Write.isObj_seed`).
-/
namespace DocQuery

namespace Value

theorem isObj_iff {v : Value} : v.isObj = true ↔ ∃ fs, v = obj fs := by
  cases v with
  | obj fs => exact iff_of_true rfl ⟨fs, rfl⟩
  | _ => exact iff_of_false nofun nofun

variable {v : Value}

theorem isObj_setPath (v : Value) (path : String) (w : Value) : (v.setPath path w).isObj = true := by
  obtain ⟨segment, rest, hpath⟩ := ofText_eq_cons path
  rw [setPath, hpath]
  rfl

theorem isObj_modifyAt {f : Value → Value} (segment : String) (rest : List String) (hv : v.isObj = true) :
    (v.modifyAt f (segment :: rest)).isObj = true := by
  obtain ⟨fs, rfl⟩ := isObj_iff.1 hv
  rw [modifyAt]
  cases Keyed.get? fs segment <;> rfl

theorem isObj_removePath (hv : v.isObj = true) (path : String) : (v.removePath path).isObj = true := by
  obtain ⟨segment, rest, hpath⟩ := ofText_eq_cons path
  rw [removePath, hpath]
  cases rest with
  | nil =>
    obtain ⟨fs, rfl⟩ := isObj_iff.1 hv
    rfl
  | cons next rest => exact isObj_modifyAt segment _ hv

end Value

namespace Change

open Value (isObj_setPath isObj_removePath)

section

variable {doc operand new : Value} {path : String} {edit : List Value → List Value}

theorem isObj_setItems (hd : doc.isObj = true) (path : String) (xs : List Value) :
    (setItems doc path xs).isObj = true := by
  obtain ⟨segment, rest, hpath⟩ := Value.ofText_eq_cons path
  rw [setItems, hpath]
  exact Value.isObj_modifyAt segment rest hd

theorem isObj_withTarget (hd : doc.isObj = true) (path : String) : (withTarget doc path).isObj = true := by
  unfold withTarget
  split
  · exact isObj_setPath doc path _
  · exact hd

theorem isObj_editArray {op : String} (hd : doc.isObj = true) (h : editArray op path doc edit = .ok new) :
    new.isObj = true := by
  unfold editArray at h
  simp only at h
  split at h
  · cases h
    exact isObj_setItems (isObj_withTarget hd path) path _
  · cases h

theorem isObj_shrinkArray (hd : doc.isObj = true) : (shrinkArray path doc edit).isObj = true := by
  unfold shrinkArray
  simp only
  split
  · exact isObj_setItems (isObj_withTarget hd path) path _
  · exact isObj_withTarget hd path

theorem isObj_increment (h : increment doc path operand = .ok new) : new.isObj = true := by
  unfold increment at h
  split at h
  · cases h
    exact isObj_setPath doc path _
  · split at h
    · cases h
      exact isObj_setPath doc path _
    · cases h

/-- **Every operator leaves an object of an object.** -/
theorem isObj_operate {op : String} (hd : doc.isObj = true) (h : operate op path operand doc = .ok new) :
    new.isObj = true := by
  unfold operate at h
  split at h
  · cases h
    exact isObj_setPath doc path _
  · cases h
    exact isObj_removePath hd path
  · exact isObj_increment h
  · exact isObj_editArray hd h
  · exact isObj_editArray hd h
  · exact isObj_editArray hd h
  · cases h
    exact isObj_shrinkArray hd
  · cases h
    exact isObj_shrinkArray hd
  · cases h
    exact isObj_shrinkArray hd
  · cases h

theorem isObj_operateAll {op : String} : ∀ {entries : List (String × Value)} {doc : Value}, doc.isObj = true →
    (operateAll op entries doc).1.isObj = true
  | [], _, hd => hd
  | (path, operand) :: entries, doc, hd => by
    rw [operateAll]
    split
    · rename_i new hnew
      exact isObj_operateAll (isObj_operate hd hnew)
    · exact hd

theorem isObj_run : ∀ {fs : List (String × Value)} {doc : Value}, doc.isObj = true → (run fs doc).1.isObj = true
  | [], _, hd => hd
  | (op, v) :: fs, doc, hd => by
    cases v with
    | obj fields =>
      have hone : (operateAll op fields doc).1.isObj = true := isObj_operateAll hd
      rw [run]
      split
      · rename_i new hnew
        rw [hnew] at hone
        exact isObj_run hone
      · rename_i new f hnew
        rw [hnew] at hone
        exact hone
    | _ => exact hd

theorem isObj_replacement (doc : Value) (fs : Fields) : (replacement doc fs).isObj = true := by
  unfold replacement
  split <;> rfl

/-- **A change leaves an object of an object**, also where it fails. -/
theorem isObj_apply (change : Value) (hd : doc.isObj = true) : (apply change doc).1.isObj = true := by
  cases change with
  | obj fs =>
    rw [apply]
    split
    · have hrun : (run fs doc).1.isObj = true := isObj_run hd
      split
      · rename_i new hnew
        rwa [hnew] at hrun
      · rename_i new f hnew
        rwa [hnew] at hrun
    · exact isObj_replacement doc fs
  | _ => exact hd

end

end Change

namespace Write

mutual

/-- **An upsert starts from an object.** -/
theorem isObj_seed : ∀ (filter : Value) {acc : Value}, acc.isObj = true → (seed acc filter).isObj = true
  | .obj fs, _, h => by
    rw [seed]
    exact isObj_seedFields fs h
  | .null, _, h | .bool _, _, h | .int _, _, h | .float _, _, h | .str _, _, h | .arr _, _, h => h

theorem isObj_seedFields : ∀ (fs : List (String × Value)) {acc : Value}, acc.isObj = true →
    (seedFields acc fs).isObj = true
  | [], _, h => h
  | (key, v) :: fs, acc, h => by
    rw [seedFields_cons]
    refine isObj_seedFields fs ?_
    unfold seedField
    split
    · cases v with
      | arr branches => exact isObj_seedBranches branches h
      | _ => exact h
    · split
      · exact h
      · split
        · split
          · split
            · exact Value.isObj_setPath acc key _
            · exact h
          · exact Value.isObj_setPath acc key _
        · exact Value.isObj_setPath acc key _

theorem isObj_seedBranches : ∀ (bs : List Value) {acc : Value}, acc.isObj = true → (seedBranches acc bs).isObj = true
  | [], _, h => h
  | b :: bs, _, h => by
    rw [seedBranches]
    exact isObj_seedBranches bs (isObj_seed b h)

end

theorem isObj_ensureId {doc : Value} (supply : IdSupply) (hd : doc.isObj = true) :
    (ensureId supply doc).1.isObj = true := by
  obtain ⟨fs, rfl⟩ := Value.isObj_iff.1 hd
  rw [ensureId]
  split <;> rfl

end Write

end DocQuery
