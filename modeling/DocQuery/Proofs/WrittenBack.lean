import DocQuery.Compile.Data
import DocQuery.Proofs.NativeId

/-!
# Rows written back

Callers who know a native `_id` as `id` get it as text, and may hand the row back as data.  Assignments keep loose
values as they are (`Assignment.toValue_ofValue`), the text becomes the identifier again, and so the data stand for the
document that the row is of (`KeyRule.document_of_row`).
-/
namespace DocQuery

namespace Assignment

theorem toValue_ofValue (v : Value) : (ofValue v).toValue = v := by
  unfold ofValue
  split
  · split
    · rfl
    · rfl
  · rfl

end Assignment

namespace Request

theorem data_mergeData {fs : Fields} (h : (Keyed.keys fs).Nodup) :
    (({} : Request).mergeData fs).data = fs.map fun e => (e.1, .ofValue e.2) := by
  refine Keyed.ofList_eq_self ?_
  rw [Keyed.keys, List.map_map]
  exact h

end Request

namespace KeyRule

/-- **Data whose stored names are apart stand for a document with one field for each.** -/
theorem document_mergeData {r : KeyRule} {fs : Fields} (h : (Keyed.keys fs).Nodup)
    (hstored : (fs.map fun e => r.storedName e.1).Nodup) :
    r.document (({} : Request).mergeData fs).data =
      fs.map fun e => (r.storedName e.1, r.storedValue (r.storedName e.1) e.2) := by
  have hentries : ((fs.map fun e => (e.1, Assignment.ofValue e.2)).map fun e =>
      (r.storedName e.1, r.storedValue (r.storedName e.1) e.2.toValue)) =
      fs.map fun e => (r.storedName e.1, r.storedValue (r.storedName e.1) e.2) := by
    rw [List.map_map]
    exact List.map_congr_left fun e _ => by simp only [Function.comp_apply, Assignment.toValue_ofValue]
  rw [document, Request.data_mergeData h, hentries]
  refine Keyed.ofList_eq_self ?_
  rw [Keyed.keys, List.map_map]
  exact hstored

def exposed : KeyRule := ⟨true, .native⟩

theorem storedName_exposed {name : String} (hid : name ≠ "id") (htrim : Text.trim name = name) :
    exposed.storedName name = name := by
  rw [storedName, if_neg fun h => hid h.2, htrim]

theorem storedValue_of_ne {r : KeyRule} {stored : String} (h : stored ≠ "_id") (v : Value) :
    r.storedValue stored v = v := if_neg fun hid => h hid.1

section

variable {fs : Fields} {id : ObjectId}

theorem mem_swapErase_id (hkeys : (Keyed.keys fs).Nodup) {e : String × Value} (he : e ∈ Keyed.swapErase fs "_id") :
    e ∈ fs ∧ e.1 ≠ "_id" := by
  have hget : Keyed.get? (Keyed.swapErase fs "_id") e.1 = some e.2 :=
    (Keyed.mem_iff_get? (Keyed.nodup_keys_swapErase hkeys "_id")).1 he
  refine ⟨(Keyed.erase_sublist fs "_id").subset ((Keyed.swapErase_perm fs "_id").mem_iff.1 he), fun heq => ?_⟩
  rw [heq, Keyed.get?_swapErase_self hkeys] at hget
  cases hget

/-- **Written back, the row of a document becomes its other fields and its identifier.** -/
theorem document_exposed (hkeys : (Keyed.keys fs).Nodup) (hplain : Keyed.get? fs "id" = none)
    (htrim : ∀ name ∈ Keyed.keys fs, Text.trim name = name) :
    exposed.document (({} : Request).mergeData (Keyed.set (Keyed.swapErase fs "_id") "id" (.str id.text))).data =
      Keyed.set (Keyed.swapErase fs "_id") "_id" id.toValue := by
  have hrest := Keyed.nodup_keys_swapErase hkeys "_id"
  have hfree : Keyed.get? (Keyed.swapErase fs "_id") "id" = none := by
    rw [Keyed.get?_swapErase hkeys, if_neg (by decide), hplain]
  have hgone := Keyed.get?_swapErase_self hkeys "_id"
  have hstored : ∀ e ∈ Keyed.swapErase fs "_id", exposed.storedName e.1 = e.1 := fun e he => by
    have hmem := (mem_swapErase_id hkeys he).1
    exact storedName_exposed (Keyed.get?_eq_none.1 hplain e hmem) (htrim e.1 (List.mem_map_of_mem hmem))
  -- the identifier is last under either name, and nothing before it changes
  have hentries : (Keyed.set (Keyed.swapErase fs "_id") "id" (.str id.text)).map
      (fun e => (exposed.storedName e.1, exposed.storedValue (exposed.storedName e.1) e.2)) =
      Keyed.set (Keyed.swapErase fs "_id") "_id" id.toValue := by
    rw [Keyed.set_of_get?_none hfree, Keyed.set_of_get?_none hgone, List.map_append]
    refine congrArg₂ (· ++ ·) ((List.map_congr_left fun e he => ?_).trans (List.map_id _))
      (congrArg (fun v => [("_id", v)]) (storedValue_text rfl))
    rw [hstored e he, storedValue_of_ne (mem_swapErase_id hkeys he).2]
    rfl
  have hapart : ((Keyed.set (Keyed.swapErase fs "_id") "id" (.str id.text)).map fun e =>
      exposed.storedName e.1).Nodup := by
    have hnames := congrArg Keyed.keys hentries
    rw [Keyed.keys, List.map_map] at hnames
    exact hnames ▸ Keyed.nodup_keys_set hrest "_id" id.toValue
  rw [document_mergeData (Keyed.nodup_keys_set hrest _ _) hapart, hentries]

/-- **Reading a document as a row and writing the row back gives the document again**, up to the order of its fields:
the identifier has gone from `_id` to `id` and back, and no value was taken for anything else. -/
theorem document_of_row (hkeys : (Keyed.keys fs).Nodup) {s : String} (hs : (ObjectId.ofText? s).isSome = true)
    (hlower : Text.lower s = s) (hid : Keyed.get? fs "_id" = some (.obj [("$oid", .str s)]))
    (hplain : Keyed.get? fs "id" = none) (htrim : ∀ name ∈ Keyed.keys fs, Text.trim name = name) :
    ∃ row, (Value.obj fs).exposeId = .obj row ∧ Keyed.get? row "_id" = none ∧ Keyed.get? row "id" = some (.str s) ∧
      (exposed.document (({} : Request).mergeData row).data).Perm fs ∧
      ((Value.obj fs).WellFormed →
        (Value.obj (exposed.document (({} : Request).mergeData row).data)).beq (.obj fs) = true) := by
  obtain ⟨id, hread⟩ := Option.isSome_iff_exists.1 hs
  have htext : s = id.text := (ObjectId.text_of_ofText? hread ▸ hlower).symm
  subst htext
  have hrow : (Value.obj fs).exposeId = .obj (Keyed.set (Keyed.swapErase fs "_id") "id" (.str id.text)) := by
    rw [Value.exposeId, hid, Option.bind_some, ← ObjectId.fieldKey, ← ObjectId.toValue, ObjectId.ofValue?_toValue]
  have hgone := Keyed.get?_swapErase_self hkeys "_id"
  have hperm : (Keyed.set (Keyed.swapErase fs "_id") "_id" id.toValue).Perm fs := by
    rw [Keyed.set_of_get?_none hgone]
    exact (List.perm_append_singleton _ _).trans
      (((Keyed.swapErase_perm fs "_id").cons _).trans (Keyed.perm_cons_erase hid).symm)
  refine ⟨_, hrow, ?_, Keyed.get?_set_self _ _ _, ?_, fun hwell => ?_⟩
  · rw [Keyed.get?_set_ne _ _ (by decide), hgone]
  · rw [document_exposed hkeys hplain htrim]
    exact hperm
  · rw [document_exposed hkeys hplain htrim]
    exact Value.beq_of_perm hwell hperm

end

def ticket : Fields :=
  [("title", .str "a"), ("_id", .obj [("$oid", .str "5f1d7a3b9c2e4a0012345678")]),
    ("change", .arr [.str "$push", .obj [("id", .int 1)]]), ("n", .int 2)]

theorem document_of_row_ticket : (Keyed.keys ticket).Nodup ∧
    (ObjectId.ofText? "5f1d7a3b9c2e4a0012345678").isSome = true ∧
    Text.lower "5f1d7a3b9c2e4a0012345678" = "5f1d7a3b9c2e4a0012345678" ∧
    Keyed.get? ticket "_id" = some (.obj [("$oid", .str "5f1d7a3b9c2e4a0012345678")]) ∧
    Keyed.get? ticket "id" = none ∧ (∀ name ∈ Keyed.keys ticket, Text.trim name = name) ∧
    ∃ row, (Value.obj ticket).exposeId = .obj row ∧
      (exposed.document (({} : Request).mergeData row).data).Perm ticket := by
  have hkeys : (Keyed.keys ticket).Nodup := by decide
  have htrim : ∀ name ∈ Keyed.keys ticket, Text.trim name = name := by decide
  obtain ⟨row, hrow, -, -, hperm, -⟩ := document_of_row hkeys (s := "5f1d7a3b9c2e4a0012345678") (by decide) (by decide)
    rfl rfl htrim
  exact ⟨hkeys, by decide, by decide, rfl, rfl, htrim, row, hrow, hperm⟩

end KeyRule

end DocQuery
