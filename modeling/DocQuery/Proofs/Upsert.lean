import DocQuery.Proofs.Addressed
import DocQuery.Proofs.Bulk
import DocQuery.Proofs.Comparators

/-!
# Upserts and their own filters

The document of an upsert starts from what the filter wants to be equal to something, and what is read as equality
there is what filters read so, but for the empty object: as a condition it is a value, as a start it is an object
without operators.  So the document that an upsert inserts is found by its filter, and the same upsert inserts no other
one, just if no condition is on the empty object (`Store.upsert_found_again`).
-/
namespace DocQuery

theorem Value.meets_self {v : Value} (hv : v.WellFormed) : v.meets v = true := by
  have hself := Value.beq_self hv
  cases v <;> simp [Value.meets, hself]

/-! ## Filters that are equality conditions -/

namespace Filter

/-- The fields of a filter document are conditions that undotted fields equal values, which are none of operators;
some of them may stand in the branches of a conjunction, and in conjunctions there. -/
inductive Equates : List (String × Value) → List (String × Value) → Prop
  | nil : Equates [] []
  | field {key : String} {v : Value} {fs cs : List (String × Value)} (plain : Text.startsWith key "$" = false)
      (undotted : Text.hasChar '.' key = false) (value : v.operators? = none) (h : Equates fs cs) :
      Equates ((key, v) :: fs) ((key, v) :: cs)
  | noBranch {fs cs : List (String × Value)} (h : Equates fs cs) : Equates (("$and", .arr []) :: fs) cs
  | branch {gs bs fs cs : List (String × Value)} {branches : List Value} (first : Equates gs bs)
      (h : Equates (("$and", .arr branches) :: fs) cs) :
      Equates (("$and", .arr (.obj gs :: branches)) :: fs) (bs ++ cs)

variable {fs cs : List (String × Value)}

theorem Equates.undotted (h : Equates fs cs) : ∀ c ∈ cs, Text.hasChar '.' c.1 = false := by
  induction h with
  | nil => exact fun _ hc => by cases hc
  | field _ hkey _ _ ih => exact List.forall_mem_cons.2 ⟨hkey, ih⟩
  | noBranch _ ih => exact ih
  | branch _ _ ihfirst ih => exact List.forall_mem_append.2 ⟨ihfirst, ih⟩

theorem Equates.wellFormed (h : Equates fs cs) : (∀ e ∈ fs, e.2.WellFormed) → ∀ c ∈ cs, c.2.WellFormed := by
  induction h with
  | nil => exact fun _ _ hc => by cases hc
  | field _ _ _ _ ih =>
    intro hfs
    obtain ⟨hv, hfs⟩ := List.forall_mem_cons.1 hfs
    exact List.forall_mem_cons.2 ⟨hv, ih hfs⟩
  | noBranch _ ih => exact fun hfs => ih (List.forall_mem_cons.1 hfs).2
  | branch _ _ ihfirst ih =>
    intro hfs
    obtain ⟨hand, hfs⟩ := List.forall_mem_cons.1 hfs
    obtain ⟨hgs, hbranches⟩ := List.forall_mem_cons.1 hand.items
    refine List.forall_mem_append.2 ⟨ihfirst ?_, ih (List.forall_mem_cons.2 ⟨.arr hbranches, hfs⟩)⟩
    cases hgs with
    | obj _ hfields => exact hfields

theorem readField_equal {key : String} {v : Value} (hkey : Text.startsWith key "$" = false)
    (hv : v.operators? = none) : readField key v = .ok (.field key [.eq v]) := by
  have hwhere : key ≠ "$where" := fun heq => absurd hkey (by rw [heq]; decide)
  simp only [readField, Comparator.ofKey?_of_plain hkey, if_neg hwhere, hkey, Bool.false_eq_true, if_false,
    Comparator.test_ofValue_plain hv]
  rfl

theorem clauseHolds_equal (key : String) (v doc : Value) :
    clauseHolds doc (.field key [.eq v]) = Value.meetsMissing (doc.path? key) v := by
  rw [clauseHolds, Comparator.allHold_one, Test.holds]

theorem clauseHolds_and {doc : Value} {branches : List Value} {bs : List (List Clause)}
    (h : ofBranches branches = .ok bs) :
    clauseHolds doc (.junction .and bs) = true ↔ ∀ b ∈ branches, meaning b doc = true := by
  obtain ⟨-, hlength, hcount⟩ := ofBranches_eq_ok doc branches bs h
  have hall : bs.length = (branches.map (meaning · doc)).length := by simpa using hlength
  rw [clauseHolds, hcount, hall, beq_iff_eq, List.count_eq_length]
  simp

/-- **Equality conditions are read as such**, wherever they stand. -/
theorem Equates.reads (h : Equates fs cs) : ∃ f : Filter, ofFields fs = .ok f ∧
    ∀ doc, f.holds doc = true ↔ ∀ c ∈ cs, Value.meetsMissing (doc.path? c.1) c.2 = true := by
  induction h with
  | nil => exact ⟨[], by rw [ofFields], fun doc => by simp [holds_nil]⟩
  | @field key v fs cs hkey _ hv _ ih =>
    obtain ⟨f, hf, hholds⟩ := ih
    refine ⟨.field key [.eq v] :: f, by rw [ofFields_cons, readField_equal hkey hv, hf]; rfl, fun doc => ?_⟩
    rw [holds_cons, Bool.and_eq_true, clauseHolds_equal, hholds, List.forall_mem_cons]
  | @noBranch fs cs _ ih =>
    obtain ⟨f, hf, hholds⟩ := ih
    have hread : readField "$and" (.arr []) = .ok (.junction .and []) := rfl
    refine ⟨.junction .and [] :: f, by rw [ofFields_cons, hread, hf]; rfl, fun doc => ?_⟩
    rw [holds_cons, Bool.and_eq_true, hholds, clauseHolds, countHolding]
    simp
  | @branch gs bs fs cs branches _ _ ihfirst ih =>
    obtain ⟨first, hfirst, hfirstHolds⟩ := ihfirst
    obtain ⟨f, hf, hholds⟩ := ih
    rw [ofFields_cons, bind_eq_ok] at hf
    obtain ⟨clause, hclause, hf⟩ := hf
    obtain ⟨rest, hrest, rfl⟩ := map_eq_ok.1 hf
    have hand : readField "$and" (.arr branches) = (ofBranches branches).map (.junction .and) := readField_key .and _
    rw [hand] at hclause
    obtain ⟨read, hread, rfl⟩ := map_eq_ok.1 hclause
    have hbranches : ofBranches (.obj gs :: branches) = .ok (first :: read) := by
      rw [ofBranches_cons, ofValue_obj, hfirst, hread]
      rfl
    have hand' : readField "$and" (.arr (.obj gs :: branches)) =
        (ofBranches (.obj gs :: branches)).map (.junction .and) := readField_key .and _
    refine ⟨.junction .and (first :: read) :: rest, by rw [ofFields_cons, hand', hbranches, hrest]; rfl, fun doc => ?_⟩
    have hmeaning : meaning (.obj gs) doc = holds first doc := meaning_of_ofValue (by rw [ofValue_obj, hfirst]) doc
    rw [List.forall_mem_append, ← hfirstHolds, ← hholds, holds_cons, holds_cons, Bool.and_eq_true, Bool.and_eq_true,
      clauseHolds_and hbranches, clauseHolds_and hread, List.forall_mem_cons, hmeaning, and_assoc]

end Filter

/-! ## What an upsert starts from -/

namespace Write

open DocQuery.Filter (Equates)

def isEmptyObject : Value → Bool
  | .obj [] => true
  | _ => false

theorem isEmptyObject_iff {v : Value} : isEmptyObject v = true ↔ v = .obj [] := by
  cases v with
  | obj fs => cases fs <;> simp [isEmptyObject]
  | _ => simp [isEmptyObject]

/-- The conditions that an upsert starts from: those that are not on the empty object. -/
def seeded (cs : List (String × Value)) : List (String × Value) := cs.filter fun c => !isEmptyObject c.2

theorem seeded_append (bs cs : List (String × Value)) : seeded (bs ++ cs) = seeded bs ++ seeded cs :=
  List.filter_append ..

theorem seedField_equal {key : String} {v : Value} (hkey : Text.startsWith key "$" = false)
    (hdot : Text.hasChar '.' key = false) (hv : v.operators? = none) (acc : Fields) :
    seedField (.obj acc) key v = .obj (Keyed.setAll acc (seeded [(key, v)])) := by
  have hand : key ≠ "$and" := fun heq => absurd hkey (by rw [heq]; decide)
  unfold seedField
  simp only [if_neg hand, hkey, Bool.false_eq_true, if_false]
  cases v with
  | obj ops =>
    by_cases hempty : ops = []
    · subst hempty
      rfl
    · -- an object with fields is taken for operators just if a filter reads it so
      have hvalue : (Change.isOperators ops && !Keyed.has ops ObjectId.fieldKey) = false := by
        have hne : ops.isEmpty = false := by simpa using hempty
        simpa [Value.operators?, hne, Change.isOperators] using hv
      have hkept : seeded [(key, .obj ops)] = [(key, .obj ops)] := by
        have hno : isEmptyObject (.obj ops) = false := by
          rw [Bool.eq_false_iff, Ne, isEmptyObject_iff]
          simpa using hempty
        simp [seeded, hno]
      simp only [hvalue, Bool.false_eq_true, if_false]
      rw [hkept, Value.setPath_single hdot]
      rfl
  | _ => exact Value.setPath_single hdot acc _

/-- **The start of an upsert** has the conditions of the filter as fields, in order. -/
theorem seedFields_equates {fs cs : List (String × Value)} (h : Equates fs cs) : ∀ acc : Fields,
    seedFields (.obj acc) fs = .obj (Keyed.setAll acc (seeded cs)) := by
  induction h with
  | nil => exact fun _ => rfl
  | @field key v fs cs hkey hdot hv _ ih =>
    intro acc
    have hcons : seeded ((key, v) :: cs) = seeded [(key, v)] ++ seeded cs := seeded_append [(key, v)] cs
    rw [seedFields_cons, seedField_equal hkey hdot hv, ih, hcons, Keyed.setAll_append]
  | noBranch _ ih =>
    intro acc
    rw [seedFields_cons]
    exact ih acc
  | @branch gs bs fs cs branches _ _ ihfirst ih =>
    intro acc
    have hbranch : seedField (.obj acc) "$and" (.arr (.obj gs :: branches)) =
        seedField (seedFields (.obj acc) gs) "$and" (.arr branches) := by
      simp only [seedField, if_true]
      rw [seedBranches, seed]
    rw [seedFields_cons, hbranch, ihfirst, ← seedFields_cons, ih, seeded_append, Keyed.setAll_append]

/-! ## Changes that set fields -/

def setting (gs : Fields) : Value := .single "$set" (.obj gs)

theorem operateAll_set : ∀ {gs : Fields}, (∀ e ∈ gs, Text.hasChar '.' e.1 = false) → ∀ fs : Fields,
    Change.operateAll "$set" gs (.obj fs) = (.obj (Keyed.setAll fs gs), none)
  | [], _, _ => rfl
  | (key, v) :: gs, h, fs => by
    obtain ⟨hkey, hgs⟩ := List.forall_mem_cons.1 h
    have hone : Change.operate "$set" key v (.obj fs) = .ok (.obj (Keyed.set fs key v)) := by
      rw [← Value.setPath_single hkey]
      rfl
    rw [Change.operateAll, hone]
    exact operateAll_set hgs _

theorem apply_setting {gs : Fields} (h : ∀ e ∈ gs, Text.hasChar '.' e.1 = false) (fs : Fields) :
    Change.apply (setting gs) (.obj fs) =
      (.obj (Keyed.setAll fs gs), .ok (Value.obj (Keyed.setAll fs gs) != .obj fs)) := by
  have hrun : Change.run [("$set", .obj gs)] (.obj fs) = (.obj (Keyed.setAll fs gs), none) := by
    simp only [Change.run, operateAll_set h]
  have hops : Change.isOperators [("$set", .obj gs)] = true := by
    have hdollar : Text.startsWith "$set" "$" = true := by decide
    simp [Change.isOperators, hdollar]
  simp only [setting, Value.single, Change.apply, hops, if_true, hrun]

/-! ## The document that is inserted -/

/-- An upsert whose filter has equality conditions, and whose change sets other fields. -/
structure EqualityUpsert (fs cs gs : Fields) : Prop where
  conditions : Equates fs cs
  distinct : (Keyed.keys cs).Nodup
  undotted : ∀ e ∈ gs, Text.hasChar '.' e.1 = false
  others : ∀ e ∈ gs, e.1 ≠ "_id" ∧ e.1 ∉ Keyed.keys cs
  filter : (Value.obj fs).WellFormed
  change : (Value.obj gs).WellFormed

theorem get?_ensureId (supply : IdSupply) (fs : Fields) : ∃ nfs, (ensureId supply (.obj fs)).1 = .obj nfs ∧
    ∀ key, Keyed.get? nfs key =
      (Keyed.get? fs key).or (if key = "_id" then some supply.take.1.toValue else none) := by
  cases hid : Keyed.get? fs "_id" with
  | some v =>
    have hgiven : (Value.obj fs).field? "_id" = some v := hid
    refine ⟨fs, by rw [ensureId_given supply hgiven], fun key => ?_⟩
    by_cases hkey : key = "_id"
    · rw [hkey, hid]
      rfl
    · rw [if_neg hkey, Option.or_none]
  | none =>
    refine ⟨Keyed.set fs "_id" supply.take.1.toValue, by rw [ensureId_obj supply hid], fun key => ?_⟩
    rw [Keyed.get?_set]
    by_cases hkey : key = "_id"
    · rw [hkey, if_pos rfl, if_pos rfl, hid]
      rfl
    · rw [if_neg (Ne.symm hkey), if_neg hkey, Option.or_none]

namespace EqualityUpsert

variable {fs cs gs : Fields}

theorem nodup (h : EqualityUpsert fs cs gs) : (Keyed.keys (seeded cs ++ gs)).Nodup := by
  cases h.change with
  | obj hgs _ =>
    have hsub : (Keyed.keys (seeded cs)).Sublist (Keyed.keys cs) := List.filter_sublist.map Prod.fst
    rw [Keyed.keys, List.map_append]
    refine List.nodup_append.2 ⟨h.distinct.sublist hsub, hgs, fun a ha b hb heq => ?_⟩
    obtain ⟨e, he, rfl⟩ := List.mem_map.1 hb
    exact (h.others e he).2 (heq ▸ hsub.subset ha)

/-- **The change is made to what the upsert starts from.** -/
theorem apply_seed (h : EqualityUpsert fs cs gs) : ∃ changed,
    Change.apply (setting gs) (seed (.obj []) (.obj fs)) = (.obj (seeded cs ++ gs), .ok changed) := by
  have hn := h.nodup
  have hstart : Keyed.setAll [] (seeded cs) = seeded cs := by
    refine Keyed.ofList_eq_self ?_
    rw [Keyed.keys, List.map_append] at hn
    exact (List.nodup_append.1 hn).1
  have happly := apply_setting h.undotted (seeded cs)
  rw [Keyed.setAll_eq_append hn] at happly
  exact ⟨_, by rw [seed, seedFields_equates h.conditions, hstart, happly]⟩

theorem fields_new (h : EqualityUpsert fs cs gs) (supply : IdSupply) :
    ∃ nfs, (ensureId supply (.obj (seeded cs ++ gs))).1 = .obj nfs ∧ (∀ e ∈ gs, Keyed.get? nfs e.1 = some e.2) ∧
      ∀ c ∈ cs, Value.meetsMissing (Keyed.get? nfs c.1) c.2 = true ↔ c.2 ≠ .obj [] := by
  obtain ⟨nfs, hnew, hget⟩ := get?_ensureId supply (seeded cs ++ gs)
  have hkept : ∀ e ∈ seeded cs ++ gs, Keyed.get? nfs e.1 = some e.2 := fun e he => by
    rw [hget, (Keyed.mem_iff_get? h.nodup).1 he, Option.some_or]
  refine ⟨nfs, hnew, fun e he => hkept e (List.mem_append_right _ he), fun c hc => ?_⟩
  by_cases hempty : c.2 = .obj []
  · -- only an identifier that is made up may be in the place of the empty object
    have hmissing : Keyed.get? (seeded cs ++ gs) c.1 = none := Keyed.get?_eq_none.2 fun e he heq => by
      rcases List.mem_append.1 he with he | he
      · obtain ⟨hmem, hseeded⟩ := List.mem_filter.1 he
        have hce : some c.2 = some e.2 := by
          rw [← (Keyed.mem_iff_get? h.distinct).1 hc, ← heq, (Keyed.mem_iff_get? h.distinct).1 hmem]
        rw [← Option.some.inj hce, isEmptyObject_iff.2 hempty] at hseeded
        cases hseeded
      · exact (h.others e he).2 (heq ▸ List.mem_map_of_mem hc)
    rw [hget, hmissing, Option.none_or, hempty]
    by_cases hid : c.1 = "_id"
    · have hmade : supply.take.1.toValue.meets (.obj []) = false := by
        simp [ObjectId.toValue, Value.meets, Value.beq, Value.number?]
      rw [if_pos hid, Value.meetsMissing, hmade]
      simp
    · rw [if_neg hid]
      simp [Value.meetsMissing, Value.isNull]
  · have hseeded : c ∈ seeded cs := List.mem_filter.2 ⟨hc, by
      rw [Bool.eq_false_iff.2 fun h => hempty (isEmptyObject_iff.1 h)]
      rfl⟩
    have hwf : c.2.WellFormed := by
      cases h.filter with
      | obj _ hfields => exact h.conditions.wellFormed hfields c hc
    rw [hkept c (List.mem_append_left _ hseeded), Value.meetsMissing, Value.meets_self hwf]
    simp [hempty]

theorem holds_new (h : EqualityUpsert fs cs gs) {f : Filter}
    (hholds : ∀ doc, f.holds doc = true ↔ ∀ c ∈ cs, Value.meetsMissing (doc.path? c.1) c.2 = true) (supply : IdSupply) :
    f.holds (ensureId supply (.obj (seeded cs ++ gs))).1 = true ↔ ∀ c ∈ cs, c.2 ≠ .obj [] := by
  obtain ⟨nfs, hnew, -, hmeets⟩ := h.fields_new supply
  rw [hnew, hholds]
  refine forall₂_congr fun c hc => ?_
  rw [Value.path?_single (h.conditions.undotted c hc), hmeets c hc]

theorem apply_new (h : EqualityUpsert fs cs gs) (supply : IdSupply) :
    Change.apply (setting gs) (ensureId supply (.obj (seeded cs ++ gs))).1 =
      ((ensureId supply (.obj (seeded cs ++ gs))).1, .ok false) := by
  have hwf : (ensureId supply (.obj (seeded cs ++ gs))).1.WellFormed := by
    obtain ⟨changed, happly⟩ := h.apply_seed
    have hnew : upserted? (.obj fs) (setting gs) supply = some (ensureId supply (.obj (seeded cs ++ gs))).1 := by
      rw [upserted?, happly]
    exact (stored_upserted h.filter (Value.WellFormed.single h.change) hnew).wellFormed
  obtain ⟨nfs, hnew, hset, -⟩ := h.fields_new supply
  rw [hnew] at hwf ⊢
  have hsame : (Value.obj nfs == .obj nfs) = true := Value.beq_self hwf
  rw [apply_setting h.undotted, Keyed.setAll_eq_self hset, bne, hsame]
  rfl

end EqualityUpsert

end Write

namespace Store

section

variable {s : Store} {ns : Namespace} {filter change : Value} {f : Filter}

theorem write_upsert {doc : Value} {changed : Bool} (hread : Filter.ofValue filter = .ok f)
    (hnone : ∀ d ∈ s.documents ns, f.holds d = false)
    (happly : Change.apply change (Write.seed (.obj []) filter) = (doc, .ok changed)) (supply : IdSupply)
    (multi : Bool) :
    s.write supply ns [.update filter change multi true] =
      (s.setDocuments ns (s.documents ns ++ [(Write.ensureId supply doc).1]), (Write.ensureId supply doc).2,
        .ok { upserted := 1 }) := by
  simp only [write_single, Write.one, Write.update, hread, Write.updateMatches_of_none hnone, and_self, if_true,
    Write.upsert, happly, Nat.zero_add]

theorem write_unaltered {before : List Value} {d : Value} (hread : Filter.ofValue filter = .ok f)
    (hdocs : s.documents ns = before ++ [d]) (hbefore : ∀ e ∈ before, f.holds e = false) (hd : f.holds d = true)
    (happly : Change.apply change d = (d, .ok false)) (supply : IdSupply) (multi wantsUpsert : Bool) :
    s.write supply ns [.update filter change multi wantsUpsert] =
      (s.setDocuments ns (s.documents ns), supply, .ok { matched := 1 }) := by
  have hsame : Change.alters change d = false := by
    rw [Change.alters, happly]
    exact (Change.apply_eq_ok happly).symm
  have hu : Write.updateMatches f change multi (s.documents ns) = { docs := s.documents ns, matched := 1 } := by
    rw [hdocs, Write.updateMatches_first hbefore hd (fun _ _ he => by cases he) ⟨false, by rw [happly]⟩, happly, hsame]
    rfl
  exact write_update hread hu rfl (fun hzero => by cases hzero) supply

end

/-- **An upsert by equality conditions is found again by them just if none is on the empty object.**  It inserts one
document.  If that is found, the same upsert inserts no other one and leaves everything as it is; if not, it inserts
another one that is not found either, and so on. -/
theorem upsert_found_again {fs cs gs : Fields} (h : Write.EqualityUpsert fs cs gs) :
    ∃ f, Filter.ofValue (.obj fs) = .ok f ∧
      ∀ (s : Store) (supply : IdSupply) (ns : Namespace) (multi : Bool), (∀ d ∈ s.documents ns, f.holds d = false) →
        ∃ new supply',
          s.write supply ns [.update (.obj fs) (Write.setting gs) multi true] =
            (s.setDocuments ns (s.documents ns ++ [new]), supply', .ok { upserted := 1 }) ∧
          (∀ e ∈ gs, new.field? e.1 = some e.2) ∧
          -- no condition is on the empty object
          ((∀ c ∈ cs, c.2 ≠ .obj []) → f.holds new = true ∧ ∀ later,
            (s.setDocuments ns (s.documents ns ++ [new])).write later ns
                [.update (.obj fs) (Write.setting gs) multi true] =
              (s.setDocuments ns (s.documents ns ++ [new]), later, .ok { matched := 1 })) ∧
          -- some condition is
          ((∃ c ∈ cs, c.2 = .obj []) → f.holds new = false ∧ ∀ later, ∃ other later', f.holds other = false ∧
            (s.setDocuments ns (s.documents ns ++ [new])).write later ns
                [.update (.obj fs) (Write.setting gs) multi true] =
              (s.setDocuments ns (s.documents ns ++ [new, other]), later', .ok { upserted := 1 })) := by
  obtain ⟨f, hf, hholds⟩ := h.conditions.reads
  have hread : Filter.ofValue (.obj fs) = .ok f := by rw [Filter.ofValue_obj, hf]
  obtain ⟨changed, happly⟩ := h.apply_seed
  refine ⟨f, hread, fun s supply ns multi hnone => ?_⟩
  refine ⟨_, _, write_upsert hread hnone happly supply multi, fun e he => ?_, fun hall => ?_, fun hsome => ?_⟩
  · obtain ⟨nfs, hnew, hset, -⟩ := h.fields_new supply
    rw [hnew]
    exact hset e he
  · have hfound := (h.holds_new hholds supply).2 hall
    refine ⟨hfound, fun later => ?_⟩
    rw [write_unaltered hread (documents_setDocuments ..) hnone hfound (h.apply_new supply) later multi true,
      documents_setDocuments, setDocuments_setDocuments]
  · have hlost : ∀ supply, f.holds (Write.ensureId supply (.obj (Write.seeded cs ++ gs))).1 = false := fun supply => by
      obtain ⟨c, hc, hempty⟩ := hsome
      exact Bool.eq_false_iff.2 fun hfound => (h.holds_new hholds supply).1 hfound c hc hempty
    have hstill : ∀ d ∈ (s.setDocuments ns (s.documents ns ++
        [(Write.ensureId supply (.obj (Write.seeded cs ++ gs))).1])).documents ns, f.holds d = false := by
      rw [documents_setDocuments]
      exact List.forall_mem_append.2 ⟨hnone, List.forall_mem_singleton.2 (hlost supply)⟩
    refine ⟨hlost supply, fun later => ?_⟩
    have hagain := write_upsert hread hstill happly later multi
    rw [documents_setDocuments, setDocuments_setDocuments, List.append_assoc, List.singleton_append] at hagain
    exact ⟨_, _, hlost later, hagain⟩

def taggedUsers : Fields :=
  [("$and", .arr [.single "kind" (.str "user"), .obj [("tags", .arr [.str "a"]), ("note", .null)]])]

theorem equalityUpsert_taggedUsers : Write.EqualityUpsert taggedUsers
    [("kind", .str "user"), ("tags", .arr [.str "a"]), ("note", .null)] [("n", .int 1)] where
  conditions := .branch (.field (by decide) (by decide) rfl .nil)
    (.branch (.field (by decide) (by decide) rfl (.field (by decide) (by decide) rfl .nil)) (.noBranch .nil))
  distinct := by decide
  undotted := by decide
  others := by decide
  filter := Value.WellFormed.single (.arr (List.forall_mem_cons.2 ⟨Value.WellFormed.single (.str "user"),
    List.forall_mem_singleton.2 (.obj (by decide) (List.forall_mem_cons.2
      ⟨.arr (List.forall_mem_singleton.2 (.str "a")), List.forall_mem_singleton.2 .null⟩))⟩))
  change := Value.WellFormed.single (.int 1)

theorem upsert_found_again_tagged :
    Write.EqualityUpsert taggedUsers
        [("kind", .str "user"), ("tags", .arr [.str "a"]), ("note", .null)] [("n", .int 1)] ∧
      ∃ new supply',
        Store.write [] ⟨ObjectId.stamped 0, 0⟩ ⟨"app", "t"⟩
            [.update (.obj taggedUsers) (Write.setting [("n", .int 1)]) false true] =
          ([("app.t", [new])], supply', .ok { upserted := 1 }) ∧
        Store.write [("app.t", [new])] supply' ⟨"app", "t"⟩
            [.update (.obj taggedUsers) (Write.setting [("n", .int 1)]) false true] =
          ([("app.t", [new])], supply', .ok { matched := 1 }) := by
  obtain ⟨f, -, hupsert⟩ := upsert_found_again equalityUpsert_taggedUsers
  obtain ⟨new, supply', hwrite, -, hagain, -⟩ := hupsert [] ⟨ObjectId.stamped 0, 0⟩ ⟨"app", "t"⟩ false
    (fun _ hd => by cases hd)
  have hplain : ∀ c ∈ [("kind", Value.str "user"), ("tags", .arr [.str "a"]), ("note", .null)], c.2 ≠ .obj [] := by
    simp
  exact ⟨equalityUpsert_taggedUsers, new, supply', hwrite, (hagain hplain).2 supply'⟩

def emptied : Fields := [("_id", .int 1), ("a", .obj [])]

def unemptied : Value := .obj [("_id", .int 1), ("b", .str "x")]

/-- **An upsert by the empty object inserts the same document again.** -/
theorem empty_object_inserts_twice :
    Write.EqualityUpsert emptied emptied [("b", .str "x")] ∧
      Filter.ofValue (.obj emptied) = .ok [.field "_id" [.eq (.int 1)], .field "a" [.eq (.obj [])]] ∧
      Store.write [] ⟨ObjectId.stamped 0, 0⟩ ⟨"app", "t"⟩
          [.update (.obj emptied) (Write.setting [("b", .str "x")]) false true] =
        ([("app.t", [unemptied])], ⟨ObjectId.stamped 0, 0⟩, .ok { upserted := 1 }) ∧
      Filter.holds [.field "_id" [.eq (.int 1)], .field "a" [.eq (.obj [])]] unemptied = false ∧
      Store.write [("app.t", [unemptied])] ⟨ObjectId.stamped 0, 0⟩ ⟨"app", "t"⟩
          [.update (.obj emptied) (Write.setting [("b", .str "x")]) false true] =
        ([("app.t", [unemptied, unemptied])], ⟨ObjectId.stamped 0, 0⟩, .ok { upserted := 1 }) := by
  have hfields : ∀ e ∈ emptied, e.2.WellFormed :=
    List.forall_mem_cons.2 ⟨.int 1, List.forall_mem_singleton.2 (.obj List.nodup_nil fun _ he => by cases he)⟩
  exact ⟨⟨.field (by decide) (by decide) rfl (.field (by decide) (by decide) rfl .nil), by decide, by decide,
    by decide, .obj (by decide) hfields, Value.WellFormed.single (.str "x")⟩, rfl, rfl, rfl, rfl⟩

end Store

end DocQuery
