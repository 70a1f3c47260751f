import DocQuery.Proofs.WalkOrder

/-!
# What rows show of a column

A projection keeps a field, leaves it out, or computes it.  What it does not compute a row shows as its document has it,
if at all (`KeyRule.field?_shape`); moving native identifiers out of `_id` makes no difference to that, as long as the
column is not where they move to.
-/
namespace DocQuery

namespace Projection

variable {doc v : Value} {column : String}

theorem nodup_keys_produceAll : ∀ (p : Projection) {acc : Fields}, (Keyed.keys acc).Nodup →
    (Keyed.keys (produceAll doc p acc)).Nodup
  | [], _, h => h
  | (field, a) :: p, acc, h => by
    rw [produceAll]
    split
    · exact nodup_keys_produceAll p (Keyed.nodup_keys_set h _ _)
    · exact nodup_keys_produceAll p h

theorem get?_produceAll : ∀ (p : Projection) {acc : Fields},
    (∀ e ∈ p, e.1 = column → e.2 = .keep ∨ e.2 = .leaveOut) → Keyed.get? (produceAll doc p acc) column = some v →
      Keyed.get? acc column = some v ∨ doc.path? column = some v
  | [], _, _, h => .inl h
  | (field, a) :: p, acc, hp, h => by
    obtain ⟨hfirst, hrest⟩ := List.forall_mem_cons.1 hp
    rw [produceAll] at h
    cases hproduce : produce? doc field a with
    | none =>
      rw [hproduce] at h
      exact get?_produceAll p hrest h
    | some w =>
      rw [hproduce] at h
      rcases get?_produceAll p hrest h with hacc | hdoc
      · rw [Keyed.get?_set] at hacc
        by_cases hfield : field = column
        · rw [if_pos hfield] at hacc
          cases hacc
          rcases hfirst hfield with ha | ha
          · right
            rw [← hfield, ← hproduce, show a = .keep from ha]
            rfl
          · rw [show a = .leaveOut from ha] at hproduce
            cases hproduce
        · rw [if_neg hfield] at hacc
          exact .inl hacc
      · exact .inr hdoc

end Projection

theorem Value.nodup_keys_project {fs fs' : Fields} (hn : (Keyed.keys fs).Nodup) {projection : Fields}
    (h : (obj fs).project projection = obj fs') : (Keyed.keys fs').Nodup := by
  unfold Value.project Projection.apply at h
  split at h
  · cases h
    exact hn
  · simp only at h
    split at h
    · cases h
      exact hn.sublist (List.filter_sublist.map Prod.fst)
    · cases h
      refine Projection.nodup_keys_produceAll _ ?_
      split
      · exact List.nodup_nil
      · split
        · exact List.nodup_singleton _
        · exact List.nodup_nil

/-- **A column that a projection keeps or leaves out is shown as it is, if at all.** -/
theorem Value.field?_project {fs projection : Fields} {column : String} {v : Value} (hn : (Keyed.keys fs).Nodup)
    (hdot : Text.hasChar '.' column = false)
    (hp : ∀ e ∈ projection, e.1 = column → Projection.action e.2 = .keep ∨ Projection.action e.2 = .leaveOut)
    (h : ((obj fs).project projection).field? column = some v) : Keyed.get? fs column = some v := by
  unfold Value.project Projection.apply at h
  split at h
  · exact h
  · simp only at h
    split at h
    · have hmem := Keyed.mem_of_get? (show Keyed.get? (fs.filter _) column = some v from h)
      exact (Keyed.mem_iff_get? hn).1 (List.mem_filter.1 hmem).1
    · have hactions : ∀ e ∈ Projection.ofFields projection, e.1 = column → e.2 = .keep ∨ e.2 = .leaveOut := by
        intro e he
        obtain ⟨e', he', rfl⟩ := List.mem_map.1 he
        exact hp e' he'
      rcases Projection.get?_produceAll _ hactions h with hid | hpath
      · split at hid
        · cases hid
        · split at hid
          · rename_i w hw
            rw [Keyed.get?_cons] at hid
            split at hid
            · rename_i hcolumn
              cases hid
              exact hcolumn ▸ hw
            · cases hid
          · cases hid
      · rwa [Value.path?_single hdot] at hpath

theorem KeyRule.field?_shape {r : KeyRule} {q : Request} {column : String} (hdot : Text.hasChar '.' column = false)
    (hstored : r.storedName column = column)
    (hq : ∀ e ∈ q.selectedFields, r.storedName e.1 = column →
      Projection.action e.2 = .keep ∨ Projection.action e.2 = .leaveOut) {fs : Fields} (hn : (Keyed.keys fs).Nodup)
    {v : Value} (h : (r.shape q (.obj fs)).field? column = some v) : Keyed.get? fs column = some v := by
  have hactions : ∀ e ∈ ((r.findOptions q false).projection.getD []), e.1 = column →
      Projection.action e.2 = .keep ∨ Projection.action e.2 = .leaveOut := by
    intro e he
    rcases Keyed.mem_setAll he with he | he
    · cases he
    · obtain ⟨e', he', rfl⟩ := List.mem_map.1 he
      exact hq e' he'
  refine Value.field?_project hn hdot hactions ?_
  unfold shape at h
  cases hid : r.convertId with
  | false =>
    rw [hid] at h
    exact h
  | true =>
    rw [hid, if_pos rfl] at h
    have hcolumn : column ≠ "id" := by
      rintro rfl
      rw [storedName, if_pos ⟨hid, rfl⟩] at hstored
      exact absurd hstored (by decide)
    -- a native identifier has moved away from under `_id`; nothing else of the row has changed
    cases hrow : (Value.obj fs).project ((r.findOptions q false).projection.getD []) with
    | obj fs' =>
      have hn' := Value.nodup_keys_project hn hrow
      rw [hrow] at h
      unfold Value.exposeId at h
      simp only at h
      split at h
      · have hget : Keyed.get? (Keyed.set (Keyed.swapErase fs' "_id") "id" _) column = some v := h
        rw [Keyed.get?_set, if_neg hcolumn.symm, Keyed.get?_swapErase hn'] at hget
        split at hget
        · cases hget
        · exact hget
      · exact h
    | _ =>
      rw [hrow] at h
      cases h

end DocQuery
