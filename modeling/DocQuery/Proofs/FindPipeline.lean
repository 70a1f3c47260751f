import DocQuery.Proofs.Reading

/-!
# Finds as pipelines

A find has its options as they are; a pipeline reads them out of documents, stage by stage.  Both give the same rows
(`Memory.query_eq_pipeline`): `FindPayload.stages` is what to ask of a pipeline in place of a find, and reading it gives
back what it was written from (`FindPayload.ofValue_stages`), so that only the filter can be refused on either side.
-/
namespace DocQuery

theorem Value.unsigned?_ofNat (n : Nat) : (Value.ofNat n).unsigned? = some n := by
  simp [Value.ofNat, Value.unsigned?]

namespace SortKeys

/-- Keys that a sorting stage can have: no path twice, and each direction is `1` or `-1`. -/
structure Plain (keys : SortKeys) : Prop where
  distinct : (Keyed.keys keys).Nodup
  direction : ∀ e ∈ keys, e.2 = 1 ∨ e.2 = -1

theorem toValue_eq {keys : SortKeys} (h : (Keyed.keys keys).Nodup) :
    keys.toValue = .obj (keys.map fun e => (e.1, Value.int e.2)) := by
  have hkeys : Keyed.keys (keys.map fun e => (e.1, Value.int e.2)) = Keyed.keys keys := by
    rw [Keyed.keys, List.map_map]
    rfl
  unfold toValue
  rw [Keyed.ofList_eq_self (hkeys ▸ h)]

end SortKeys

namespace Stage

theorem sortKeys_map_int : ∀ {keys : SortKeys}, (∀ e ∈ keys, e.2 = 1 ∨ e.2 = -1) →
    sortKeys (keys.map fun e => (e.1, Value.int e.2)) = .ok keys
  | [], _ => rfl
  | (path, d) :: keys, h => by
    obtain ⟨hd, hrest⟩ := List.forall_mem_cons.1 h
    have hsigned : (Value.int d).signed? = some d := by
      rcases hd with hd | hd <;> (simp only at hd; subst hd; rfl)
    simp only [List.map_cons, sortKeys, hsigned, if_pos hd, sortKeys_map_int hrest]
    rfl

theorem ofValue_match (filter : Value) :
    ofValue (.single "$match" filter) = (Filter.ofValue filter).map select := rfl

theorem ofValue_sort {keys : SortKeys} (h : keys.Plain) : ofValue (.single "$sort" keys.toValue) = .ok (sort keys) := by
  rw [SortKeys.toValue_eq h.distinct]
  have hread : ofValue (.single "$sort" (.obj (keys.map fun e => (e.1, Value.int e.2))))
      = (sortKeys (keys.map fun e => (e.1, Value.int e.2))).map sort := rfl
  rw [hread, sortKeys_map_int h.direction]
  rfl

theorem ofValue_skip (n : Nat) : ofValue (.single "$skip" (.ofNat n)) = .ok (skip n) := by
  have hread : ofValue (.single "$skip" (.ofNat n)) =
      (Value.ofNat n).unsigned?.elim (.error (.query .skipCount)) fun k => .ok (skip k) := rfl
  rw [hread, Value.unsigned?_ofNat, Option.elim_some]

theorem ofValue_limit (n : Nat) : ofValue (.single "$limit" (.ofNat n)) = .ok (limit n) := by
  have hread : ofValue (.single "$limit" (.ofNat n)) =
      (Value.ofNat n).unsigned?.elim (.error (.query .limitCount)) fun k => .ok (limit k) := rfl
  rw [hread, Value.unsigned?_ofNat, Option.elim_some]

theorem ofValue_project (fs : Fields) :
    ofValue (.single "$project" (.obj fs)) = .ok (project (Projection.ofFields fs)) := rfl

end Stage

theorem Value.project_eq (projection : Fields) (doc : Value) :
    doc.project projection = (Projection.ofFields projection).apply doc := by
  unfold Value.project
  cases projection with
  | nil => cases doc with
    | obj fs => simp [Projection.ofFields, Projection.apply, Projection.isExclusion, Projection.leavesOut]
    | _ => rfl
  | cons e fs => rfl

theorem window_of_pos {n : Nat} (hn : 0 < n) (skip : Option Nat) (docs : List Value) :
    window (some n) skip docs = (docs.drop (skip.getD 0)).take n := by
  simp only [window, if_pos hn]

namespace FindPayload

/-- The stages that do what a find of at most `n` rows does, as documents. -/
def stages (p : FindPayload) (n : Nat) : List Value :=
  [.single "$match" p.filter, .single "$sort" (p.options.sort.getD []).toValue,
    .single "$skip" (.ofNat (p.options.skip.getD 0)), .single "$limit" (.ofNat n),
    .single "$project" (.obj (p.options.projection.getD []))]

def pipeline (p : FindPayload) (n : Nat) (f : Filter) : Pipeline :=
  [.select f, .sort (p.options.sort.getD []), .skip (p.options.skip.getD 0), .limit n,
    .project (Projection.ofFields (p.options.projection.getD []))]

/-- **Reading the stages of a find gives them back**, if its filter can be read. -/
theorem ofValue_stages {p : FindPayload} (h : (p.options.sort.getD []).Plain) (n : Nat) :
    Pipeline.ofValue (.arr (p.stages n)) = (Filter.ofValue p.filter).map (p.pipeline n) := by
  unfold Pipeline.ofValue stages
  simp only [List.mapM_cons, List.mapM_nil, Stage.ofValue_match, Stage.ofValue_sort h, Stage.ofValue_skip,
    Stage.ofValue_limit, Stage.ofValue_project]
  cases Filter.ofValue p.filter with
  | error e => rfl
  | ok f => rfl

/-- **The stages of a find give its rows.** -/
theorem apply_pipeline {p : FindPayload} {n : Nat} (hlimit : p.options.limit = some n) (hn : 0 < n) (f : Filter)
    (docs : List Value) : (p.pipeline n f).apply docs = p.rowsOf f docs := by
  have hproject : Value.project (p.options.projection.getD [])
      = (Projection.ofFields (p.options.projection.getD [])).apply := funext (Value.project_eq _)
  unfold rowsOf
  rw [hlimit, window_of_pos hn, hproject]
  rfl

theorem find_eq_apply_stages (st : Store) (ns : Namespace) {p : FindPayload} {n : Nat}
    (hsort : (p.options.sort.getD []).Plain) (hlimit : p.options.limit = some n) (hn : 0 < n) :
    st.find ns p = (Pipeline.ofValue (.arr (p.stages n))).map fun pipeline => pipeline.apply (st.documents ns) := by
  rw [Store.find_eq, ofValue_stages hsort]
  cases Filter.ofValue p.filter with
  | error e => rfl
  | ok f => exact congrArg Except.ok (apply_pipeline hlimit hn f _).symm

end FindPayload

/-- **An `aggregate` command with the stages of a find is the find**, and leaves the store as it is. -/
theorem Store.aggregate_stages (st : Store) (database table : String) {p : FindPayload} {n : Nat}
    (hsort : (p.options.sort.getD []).Plain) (hlimit : p.options.limit = some n) (hn : 0 < n) (more : Fields) :
    st.command database (.build "aggregate" (.str table) (("pipeline", .arr (p.stages n)) :: more))
      = (st.find (.resolve database table) p).map fun rows => (st, rows) := by
  rw [FindPayload.find_eq_apply_stages st _ hsort hlimit hn]
  have hcommand : st.command database (.build "aggregate" (.str table) (("pipeline", .arr (p.stages n)) :: more))
      = (Pipeline.ofValue (.arr (p.stages n)) >>= fun pipeline =>
          pure (st, pipeline.apply (st.documents (.resolve database table)))) := rfl
  rw [hcommand]
  cases Pipeline.ofValue (.arr (p.stages n)) with
  | error e => rfl
  | ok pipeline => rfl

namespace Memory

/-- **A find gives what the pipeline of its options gives**, rows and faults alike: for every filter, skip, projection
and limit of at least one, and for sort keys that a sorting stage can have. -/
theorem query_eq_pipeline (m : Memory) (link : Link) (ns : Namespace) (preference : Option ReadPreference)
    (filter : Value) (options : FindOptions) (keys : SortKeys) (skip n : Nat) (projection : Fields)
    (hdistinct : (Keyed.keys keys).Nodup) (hdirection : ∀ e ∈ keys, e.2 = 1 ∨ e.2 = -1) (hn : 1 ≤ n) :
    (driver.query link ns ⟨filter, { options with
        sort := some keys, skip := some skip, limit := some n, projection := some projection }⟩ preference).on m
      = ((Pipeline.ofValue (.arr [.single "$match" filter, .single "$sort" keys.toValue,
            .single "$skip" (.ofNat skip), .single "$limit" (.ofNat n), .single "$project" (.obj projection)])).map
          fun pipeline => pipeline.apply (m.store.documents ns), m) := by
  refine Prod.ext ?_ rfl
  exact FindPayload.find_eq_apply_stages m.store ns
    (p := ⟨filter, { options with
      sort := some keys, skip := some skip, limit := some n, projection := some projection }⟩)
    ⟨hdistinct, hdirection⟩ rfl hn

def threeNames : Memory :=
  { store := [("app.t", ["a", "c", "b"].map fun name => .obj [("_id", .str name), ("name", .str name)])]
    supply := ⟨ObjectId.stamped 0, 0⟩ }

theorem query_eq_pipeline_names : (Keyed.keys [("name", (-1 : Int))]).Nodup ∧
    (∀ e ∈ [("name", (-1 : Int))], e.2 = 1 ∨ e.2 = -1) ∧ 1 ≤ 2 ∧
    ((Pipeline.ofValue (.arr [.single "$match" (.single "name" (.single "$lt" (.str "d"))),
        .single "$sort" (SortKeys.toValue [("name", -1)]), .single "$skip" (.ofNat 1), .single "$limit" (.ofNat 2),
        .single "$project" (.obj [("_id", .bool false), ("name", .bool true)])])).map
      fun pipeline => pipeline.apply (threeNames.store.documents ⟨"app", "t"⟩), threeNames)
      = (.ok [.obj [("name", .str "b")], .obj [("name", .str "a")]], threeNames) := by
  have hrows : (driver.query ⟨0⟩ ⟨"app", "t"⟩ ⟨.single "name" (.single "$lt" (.str "d")), {
      sort := some [("name", -1)], skip := some 1, limit := some 2,
      projection := some [("_id", .bool false), ("name", .bool true)] }⟩ none).on threeNames
      = (.ok [.obj [("name", .str "b")], .obj [("name", .str "a")]], threeNames) := rfl
  refine ⟨by decide, by decide, by decide, ?_⟩
  rw [← hrows]
  exact (query_eq_pipeline threeNames ⟨0⟩ ⟨"app", "t"⟩ none (.single "name" (.single "$lt" (.str "d"))) {}
    [("name", -1)] 1 2 [("_id", .bool false), ("name", .bool true)] (by decide) (by decide) (by decide)).symm

end Memory

end DocQuery
