import DocQuery.Proofs.StoredId

/-!
# What updates and deletions touch

An update puts a changed document in the place of every match (`Write.updateMatches_all`) or of the first one
(`Write.updateMatches_first`); a deletion takes the matches out, or the first of them.  What matches is told of the
documents as they were before (`Store.writes_touch_addressed`), although a filter is asked about each document only
when its turn comes.
-/
namespace DocQuery

namespace Change

def Applies (change d : Value) : Prop := ∃ changed, (apply change d).2 = .ok changed

def alters (change d : Value) : Bool := (apply change d).1 != d

variable {change d : Value}

theorem apply_eq_ok {new : Value} {changed : Bool} (h : apply change d = (new, .ok changed)) :
    changed = (new != d) := by
  cases change with
  | obj fs =>
    rw [apply] at h
    split at h
    · split at h
      · cases h
        rfl
      · cases h
    · cases h
      rfl
  | _ => cases h

theorem Applies.apply_eq (h : Applies change d) : apply change d = ((apply change d).1, .ok (alters change d)) := by
  obtain ⟨changed, hchanged⟩ := h
  rcases happly : apply change d with ⟨new, out⟩
  rw [happly] at hchanged
  obtain rfl : out = .ok changed := hchanged
  rw [apply_eq_ok happly, alters, happly]

end Change

namespace Write

section

variable {f : Filter} {change : Value} {before behind : List Value} {d : Value}

/-- The document that an update of all matches leaves in the place of one. -/
def updated (f : Filter) (change d : Value) : Value := if f.holds d then (Change.apply change d).1 else d

theorem updateMatches_cons_match {multi : Bool} (hd : f.holds d = true) (happly : Change.Applies change d)
    (ds : List Value) :
    updateMatches f change multi (d :: ds) =
      let rest : Updated := if multi then updateMatches f change multi ds else { docs := ds }
      { docs := (Change.apply change d).1 :: rest.docs, matched := rest.matched + 1
        modified := rest.modified + (if Change.alters change d then 1 else 0), fault := rest.fault } := by
  rw [updateMatches, hd, happly.apply_eq]
  rfl

theorem updateMatches_cons_other (multi : Bool) (hd : f.holds d = false) (ds : List Value) :
    updateMatches f change multi (d :: ds) =
      { updateMatches f change multi ds with docs := d :: (updateMatches f change multi ds).docs } := by
  rw [updateMatches, hd]
  rfl

/-- **An update of all matches** is the same as one of each document alone. -/
theorem updateMatches_all : ∀ {docs : List Value}, (∀ d ∈ docs, f.holds d = true → Change.Applies change d) →
    updateMatches f change true docs =
      { docs := docs.map (updated f change), matched := docs.countP f.holds
        modified := docs.countP fun d => f.holds d && Change.alters change d }
  | [], _ => rfl
  | d :: ds, h => by
    obtain ⟨happly, hds⟩ := List.forall_mem_cons.1 h
    have ih := updateMatches_all hds
    by_cases hd : f.holds d = true
    · rw [updateMatches_cons_match hd (happly hd)]
      simp [ih, hd, updated, List.countP_cons]
    · have hno : f.holds d = false := by simpa using hd
      rw [updateMatches_cons_other true hno]
      simp [ih, hno, updated]

/-- **An update of the first match**, or of the only one, leaves what stands before it and behind it. -/
theorem updateMatches_first {multi : Bool} (hbefore : ∀ e ∈ before, f.holds e = false) (hd : f.holds d = true)
    (hbehind : multi = true → ∀ e ∈ behind, f.holds e = false) (happly : Change.Applies change d) :
    updateMatches f change multi (before ++ d :: behind) =
      { docs := before ++ (Change.apply change d).1 :: behind, matched := 1
        modified := if Change.alters change d then 1 else 0 } := by
  induction before with
  | nil =>
    have hrest : (if multi then updateMatches f change multi behind else { docs := behind }) = { docs := behind } := by
      cases multi with
      | false => rfl
      | true => exact updateMatches_of_none (hbehind rfl)
    rw [List.nil_append, updateMatches_cons_match hd happly, hrest]
    simp
  | cons e before ih =>
    obtain ⟨he, hbefore⟩ := List.forall_mem_cons.1 hbefore
    rw [List.cons_append, updateMatches_cons_other multi he, ih hbefore]
    rfl

theorem length_updateMatches (f : Filter) (change : Value) (multi : Bool) (docs : List Value) :
    (updateMatches f change multi docs).docs.length = docs.length := by
  have hall : List.Forall₂ (fun _ _ => True) (updateMatches f change multi docs).docs docs :=
    forall₂_updateMatches (fun _ _ => trivial) fun _ _ _ => trivial
  exact hall.length_eq

theorem removeFirst_first (hbefore : ∀ e ∈ before, f.holds e = false) (hd : f.holds d = true) :
    removeFirst f (before ++ d :: behind) = before ++ behind := by
  induction before with
  | nil => simp [removeFirst, hd]
  | cons e before ih =>
    obtain ⟨he, hbefore⟩ := List.forall_mem_cons.1 hbefore
    simp [removeFirst, he, ih hbefore]

theorem removeFirst_of_none {docs : List Value} (h : ∀ d ∈ docs, f.holds d = false) : removeFirst f docs = docs := by
  induction docs with
  | nil => rfl
  | cons d ds ih =>
    obtain ⟨hd, hds⟩ := List.forall_mem_cons.1 h
    simp [removeFirst, hd, ih hds]

theorem length_filter_not (f : Filter) (docs : List Value) :
    docs.length - (docs.filter fun d => !f.holds d).length = docs.countP f.holds := by
  have hsplit := List.length_eq_countP_add_countP f.holds (l := docs)
  have hothers : (docs.filter fun d => !f.holds d).length = docs.countP fun d => ¬ f.holds d = true := by
    rw [List.countP_eq_length_filter]
    simp
  omega

end

end Write

namespace Store

section

variable {s : Store} {ns : Namespace} {filter change : Value} {f : Filter}

theorem write_single (s : Store) (supply : IdSupply) (ns : Namespace) (w : WriteModel) :
    s.write supply ns [w] =
      let (st, fault) := Write.one ns { docs := s.documents ns, supply := supply } w
      (s.setDocuments ns st.docs, st.supply,
        match fault with
        | none => .ok st.result
        | some e => .error e) := by
  rw [write, Write.all]
  rcases Write.one ns { docs := s.documents ns, supply := supply } w with ⟨st, _ | e⟩ <;> rfl

theorem write_update (hread : Filter.ofValue filter = .ok f) {multi wantsUpsert : Bool} {u : Write.Updated}
    (hu : Write.updateMatches f change multi (s.documents ns) = u) (hfault : u.fault = none)
    (hupsert : u.matched = 0 → wantsUpsert = false) (supply : IdSupply) :
    s.write supply ns [.update filter change multi wantsUpsert] =
      (s.setDocuments ns u.docs, supply, .ok { matched := u.matched, modified := u.modified }) := by
  have hno : ¬ (u.matched = 0 ∧ wantsUpsert = true) := fun ⟨h, hwants⟩ => by simp [hupsert h] at hwants
  simp only [write_single, Write.one, Write.update, hread, hu, hfault, if_neg hno, Nat.zero_add]

theorem write_delete (hread : Filter.ofValue filter = .ok f) {limit : Nat} {docs : List Value}
    (hdocs : (if limit = 1 then Write.removeFirst f (s.documents ns)
      else (s.documents ns).filter fun d => !f.holds d) = docs) (supply : IdSupply) :
    s.write supply ns [.delete filter limit] =
      (s.setDocuments ns docs, supply, .ok { deleted := (s.documents ns).length - docs.length }) := by
  simp only [write_single, Write.one, Write.delete, hread, hdocs, Nat.zero_add]

theorem length_write_update (s : Store) (supply : IdSupply) (ns : Namespace) (filter change : Value) (multi : Bool) :
    ((s.write supply ns [.update filter change multi false]).1.documents ns).length = (s.documents ns).length := by
  rw [write_single, documents_setDocuments, Write.one, Write.update]
  split
  · rfl
  · rename_i f hread
    simp only [Bool.false_eq_true, and_false, if_false]
    split <;> exact Write.length_updateMatches f change multi (s.documents ns)

end

/-- What updates and deletions by a filter do to a collection. -/
structure TouchesAddressed (s : Store) (supply : IdSupply) (ns : Namespace) (filter : Value) (f : Filter) : Prop where
  updateMany : ∀ change wantsUpsert, (∀ d ∈ s.documents ns, f.holds d = true → Change.Applies change d) →
    (wantsUpsert = true → ∃ d ∈ s.documents ns, f.holds d = true) →
    ∃ docs, s.write supply ns [.update filter change true wantsUpsert] =
        (s.setDocuments ns docs, supply, .ok
          { matched := (s.documents ns).countP f.holds
            modified := (s.documents ns).countP fun d => f.holds d && Change.alters change d }) ∧
      docs.length = (s.documents ns).length ∧
      ∀ (i : Nat) (d : Value), (s.documents ns)[i]? = some d →
        docs[i]? = some (if f.holds d then (Change.apply change d).1 else d)
  /-- The first match is the one behind documents that do not match. -/
  updateOne : ∀ change wantsUpsert before d behind, s.documents ns = before ++ d :: behind →
    (∀ e ∈ before, f.holds e = false) → f.holds d = true → Change.Applies change d →
    s.write supply ns [.update filter change false wantsUpsert] =
      (s.setDocuments ns (before ++ (Change.apply change d).1 :: behind), supply, .ok
        { matched := 1, modified := if Change.alters change d then 1 else 0 })
  deleteOne : ∀ before d behind, s.documents ns = before ++ d :: behind → (∀ e ∈ before, f.holds e = false) →
    f.holds d = true →
    s.write supply ns [.delete filter 1] = (s.setDocuments ns (before ++ behind), supply, .ok { deleted := 1 })
  deleteMany : ∀ limit, limit ≠ 1 → s.write supply ns [.delete filter limit] =
    (s.setDocuments ns ((s.documents ns).filter fun d => !f.holds d), supply, .ok
      { deleted := (s.documents ns).countP f.holds })
  updateNone : (∀ d ∈ s.documents ns, f.holds d = false) → ∀ change multi,
    s.write supply ns [.update filter change multi false] = (s.setDocuments ns (s.documents ns), supply, .ok {})
  deleteNone : (∀ d ∈ s.documents ns, f.holds d = false) → ∀ limit,
    s.write supply ns [.delete filter limit] = (s.setDocuments ns (s.documents ns), supply, .ok {})
  /-- Failing updates do not add documents either. -/
  length : ∀ change multi, ((s.write supply ns [.update filter change multi false]).1.documents ns).length =
    (s.documents ns).length

/-- **Updates and deletions touch the documents that they address, and no other**: every match, or the first one.  All
that stays keeps its place or at least its order, no other collection is touched, and without an upsert the documents
do not get more. -/
theorem writes_touch_addressed (s : Store) (supply : IdSupply) (ns : Namespace) {filter : Value} {f : Filter}
    (hread : Filter.ofValue filter = .ok f) : s.TouchesAddressed supply ns filter f where
  updateMany change wantsUpsert happly hmatch := by
    refine ⟨_, write_update hread (Write.updateMatches_all happly) rfl (fun hzero => ?_) supply, List.length_map _,
      fun i d hi => ?_⟩
    · rw [Bool.eq_false_iff]
      intro hwants
      obtain ⟨d, hmem, hd⟩ := hmatch hwants
      exact List.countP_eq_zero.1 hzero d hmem hd
    · rw [List.getElem?_map, hi]
      rfl
  updateOne change wantsUpsert before d behind hdocs hbefore hd happly := by
    have hu : Write.updateMatches f change false (s.documents ns) = _ :=
      hdocs ▸ Write.updateMatches_first hbefore hd (fun h => by cases h) happly
    refine write_update hread hu rfl (fun hzero => ?_) supply
    cases hzero
  deleteOne before d behind hdocs hbefore hd := by
    have hrest : Write.removeFirst f (s.documents ns) = before ++ behind := by
      rw [hdocs, Write.removeFirst_first hbefore hd]
    have hlength : (s.documents ns).length - (before ++ behind).length = 1 := by
      rw [hdocs]
      simp only [List.length_append, List.length_cons]
      omega
    rw [write_delete hread ((if_pos rfl).trans hrest), hlength]
  deleteMany limit hlimit := by
    rw [write_delete hread (if_neg hlimit), Write.length_filter_not]
  updateNone hnone change multi :=
    write_update hread (Write.updateMatches_of_none hnone) rfl (fun _ => rfl) supply
  deleteNone hnone limit := by
    have hall : ((s.documents ns).filter fun d => !f.holds d) = s.documents ns :=
      List.filter_eq_self.2 fun d hd => by simp [hnone d hd]
    have hkept : (if limit = 1 then Write.removeFirst f (s.documents ns)
        else (s.documents ns).filter fun d => !f.holds d) = s.documents ns := by
      rw [Write.removeFirst_of_none hnone, hall, ite_self]
    rw [write_delete hread hkept, Nat.sub_self]
  length := length_write_update s supply ns filter

def labelled (id : Int) (label : String) : Value := .obj [("_id", .int id), ("k", .str label)]

def labels : Store := [("app.t", [labelled 1 "a", labelled 2 "b", labelled 3 "a"])]

theorem writes_touch_addressed_labels :
    Filter.ofValue (.single "k" (.str "a")) = .ok [.field "k" [.eq (.str "a")]] ∧
    (∃ docs, labels.write ⟨ObjectId.stamped 0, 0⟩ ⟨"app", "t"⟩
          [.update (.single "k" (.str "a")) (.single "$set" (.single "k" (.str "c"))) true false] =
        (labels.setDocuments ⟨"app", "t"⟩ docs, ⟨ObjectId.stamped 0, 0⟩, .ok { matched := 2, modified := 2 }) ∧
      docs.length = 3 ∧ docs[0]? = some (labelled 1 "c") ∧ docs[1]? = some (labelled 2 "b") ∧
      docs[2]? = some (labelled 3 "c")) ∧
    labels.write ⟨ObjectId.stamped 0, 0⟩ ⟨"app", "t"⟩ [.delete (.single "k" (.str "a")) 1] =
      (labels.setDocuments ⟨"app", "t"⟩ [labelled 2 "b", labelled 3 "a"], ⟨ObjectId.stamped 0, 0⟩,
        .ok { deleted := 1 }) := by
  have hread : Filter.ofValue (.single "k" (.str "a")) = .ok [.field "k" [.eq (.str "a")]] := rfl
  have htouches := writes_touch_addressed labels ⟨ObjectId.stamped 0, 0⟩ ⟨"app", "t"⟩ hread
  have happly : ∀ d ∈ labels.documents ⟨"app", "t"⟩, Filter.holds [.field "k" [.eq (.str "a")]] d = true →
      Change.Applies (.single "$set" (.single "k" (.str "c"))) d := fun d _ _ => ⟨_, rfl⟩
  obtain ⟨docs, hwrite, hlength, hplaces⟩ := htouches.updateMany _ false happly (fun h => by cases h)
  exact ⟨hread, ⟨docs, hwrite, hlength, hplaces 0 _ rfl, hplaces 1 _ rfl, hplaces 2 _ rfl⟩,
    htouches.deleteOne [] (labelled 1 "a") [labelled 2 "b", labelled 3 "a"] rfl (fun _ he => by cases he) rfl⟩

end Store

end DocQuery
