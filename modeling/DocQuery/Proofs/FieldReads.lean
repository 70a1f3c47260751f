import DocQuery.Proofs.CacheKey
import DocQuery.Proofs.Pages
import DocQuery.Proofs.Projection

/-!
# Reading one field

The value and the column of a field are read from rows that are narrowed to that field, and the field is looked up again
in the narrowed row.  A row is narrowed to a path by keeping what is there under the whole path as one key, where a
lookup that goes from dot to dot does not come by (`Value.path?_narrowed`).  So values and columns are those of whole
rows just where the path has no dot, goes through the identifier, or leads nowhere (`Query.field_reads_iff`).
-/
namespace DocQuery

/-! ## Paths with a dot -/

theorem Path.ofText_dotted {path : String} (h : Text.hasChar '.' path = true) : ∃ first rest,
    Path.ofText path = first :: rest ∧ first ≠ path := by
  obtain ⟨first, rest, hpath⟩ := Value.ofText_eq_cons path
  refine ⟨first, rest, hpath, ?_⟩
  rintro rfl
  have hhead : (Path.ofText first).head? = some first := by rw [hpath, List.head?_cons]
  rw [Path.undotted_of_head? hhead] at h
  cases h

/-! ## Narrowed rows -/

namespace Value

def idFields (fs : Fields) : Fields :=
  match Keyed.get? fs "_id" with
  | some v => [("_id", v)]
  | none => []

theorem get?_idFields (fs : Fields) (key : String) :
    Keyed.get? (idFields fs) key = if key = "_id" then Keyed.get? fs "_id" else none := by
  unfold idFields
  by_cases hkey : key = "_id"
  · subst hkey
    rw [if_pos rfl]
    cases Keyed.get? fs "_id" <;> rfl
  · rw [if_neg hkey]
    cases Keyed.get? fs "_id" with
    | none => rfl
    | some v => rw [Keyed.get?_cons, if_neg (Ne.symm hkey), Keyed.get?_nil]

theorem project_field (fs : Fields) (field : String) : (obj fs).project [(field, .int 1)] =
    obj (((obj fs).path? field).elim (idFields fs) (Keyed.set (idFields fs) field)) := by
  have hleaves : Projection.leavesOut [(field, .keep)] "_id" = false := by
    unfold Projection.leavesOut
    rw [Keyed.get?_cons]
    by_cases hfield : field = "_id"
    · rw [if_pos hfield]
    · rw [if_neg hfield, Keyed.get?_nil]
  have haction : Projection.ofFields [(field, .int 1)] = [(field, .keep)] := rfl
  rw [project, List.isEmpty_cons, haction]
  simp only [Bool.false_eq_true, if_false, Projection.apply, hleaves]
  rw [show Projection.isExclusion [(field, .keep)] = false from rfl]
  simp only [Bool.false_eq_true, if_false, Projection.produceAll, Projection.produce?]
  cases (obj fs).path? field <;> rfl

theorem path?_narrowed_undotted (fs : Fields) {field : String} (h : Text.hasChar '.' field = false) :
    ((obj fs).project [(field, .int 1)]).path? field = (obj fs).path? field := by
  rw [project_field, path?_single h, path?_single h]
  cases hget : Keyed.get? fs field with
  | some v => exact Keyed.get?_set_self _ _ _
  | none =>
    rw [Option.elim_none, get?_idFields]
    by_cases hid : field = "_id"
    · rw [if_pos hid, ← hid, hget]
    · rw [if_neg hid]

/-- **A row that is narrowed to a path with a dot has nothing there, unless the path goes through the identifier.** -/
theorem path?_narrowed_dotted (fs : Fields) {field : String} (h : Text.hasChar '.' field = true) :
    ((obj fs).project [(field, .int 1)]).path? field =
      if (Path.ofText field).head? = some "_id" then (obj fs).path? field else none := by
  obtain ⟨first, rest, hpath, hfirst⟩ := Path.ofText_dotted h
  have hstep : ∀ gs : Fields, (obj gs).path? field = (Keyed.get? gs first).bind (at? · rest) := fun gs => by
    rw [path?, hpath, at?, step?]
  -- what the projection puts has the whole path for a key, which no segment is
  have hget : Keyed.get? (((obj fs).path? field).elim (idFields fs) (Keyed.set (idFields fs) field)) first =
      Keyed.get? (idFields fs) first := by
    cases (obj fs).path? field with
    | none => rfl
    | some v => exact Keyed.get?_set_ne _ _ hfirst.symm
  rw [project_field, hstep, hget, get?_idFields, hpath, List.head?_cons]
  by_cases hid : first = "_id"
  · rw [if_pos hid, if_pos (congrArg some hid), hstep, hid]
  · rw [if_neg hid, if_neg fun he => hid (Option.some.inj he)]
    rfl

theorem project_of_not_obj {v : Value} (h : v.isObj = false) (fs : Fields) : v.project fs = v := by
  unfold project
  split
  · rfl
  · cases v with
    | obj fs => cases h
    | _ => rfl

end Value

namespace Session

/-- A row that is narrowed to a field shows the same at its path. -/
def Shows (field : String) (row : Value) : Prop :=
  Text.hasChar '.' field = false ∨ Value.TouchesId field ∨ row.isObj = false ∨
    valueAt field row = .null

theorem valueAt_narrowed_iff (field : String) (row : Value) :
    valueAt field (row.project [(field, .int 1)]) = valueAt field row ↔ Shows field row := by
  cases hobj : row.isObj with
  | false =>
    rw [Value.project_of_not_obj hobj]
    exact iff_of_true rfl (.inr (.inr (.inl hobj)))
  | true =>
    cases row with
    | obj fs =>
      cases hdot : Text.hasChar '.' field with
      | false =>
        rw [valueAt, Value.path?_narrowed_undotted fs hdot]
        exact iff_of_true rfl (.inl hdot)
      | true =>
        rw [valueAt, Value.path?_narrowed_dotted fs hdot]
        by_cases hid : (Path.ofText field).head? = some "_id"
        · rw [if_pos hid]
          exact iff_of_true rfl (.inr (.inl hid))
        · have hnot : ¬ Value.TouchesId field := hid
          rw [if_neg hid]
          simp [Shows, hdot, hnot, hobj, Value.orNull, eq_comm]
    | _ => cases hobj

end Session

/-! ## Selections -/

def Request.Reselects (q' q : Request) : Prop := ∃ selection, q' = { q with selection := selection }

theorem Request.reselects_select (q : Request) (choice : FieldChoice) (exclude : Bool) :
    (q.select choice exclude).Reselects q := by
  cases choice with
  | all => exact ⟨_, rfl⟩
  | names names => exact ⟨_, rfl⟩
  | computed fs => exact ⟨_, rfl⟩

theorem Request.Reselects.cache {q q' : Request} (h : q'.Reselects q) : q'.cache = q.cache := by
  obtain ⟨selection, rfl⟩ := h
  rfl

theorem Request.selectedFields_names (q : Request) {field : String} (htrim : Text.trim field = field) :
    (q.select (.ofNames [field]) false).selectedFields = [(field, .int 1)] := by
  rw [FieldChoice.ofNames, List.map_singleton, htrim]
  rfl

theorem Request.selectedFields_text (q : Request) {field : String} (htrim : Text.trim field = field)
    (hcomma : Text.hasChar ',' field = false) : (q.select (.ofText field) false).selectedFields =
      if field = "*" ∨ field = "" then [] else [(field, .int 1)] := by
  unfold FieldChoice.ofText
  rw [htrim]
  by_cases hstar : field = "*"
  · rw [if_pos hstar, if_pos (.inl hstar)]
    rfl
  · rw [if_neg hstar]
    by_cases hempty : field = ""
    · rw [if_pos (.inr hempty), hempty]
      rfl
    · rw [if_neg (not_or.2 ⟨hstar, hempty⟩), Text.splitList_item ⟨htrim, hcomma, hstar, hempty⟩]
      rfl

/-- The conditions of a request mean the same whatever fields are selected. -/
def KeyRule.Unselective (r : KeyRule) (q : Request) : Prop :=
  ∀ q' : Request, q'.Reselects q → r.compileFilter q' = r.compileFilter q

theorem KeyRule.unselective_of_plain {r : KeyRule} {q : Request}
    (hq : ∀ e ∈ q.filter.entries, ∃ c, e.2.2 = .plain c) : r.Unselective q := by
  rintro q' ⟨selection, rfl⟩
  exact compileFilter_of_plain hq rfl

namespace Session

section

variable {s : Session Memory} {q q' : Request} {field : String}

/-- **A find with another selection shows the same documents**, cut down to it. -/
theorem fetched_reselected (hm : s.pool.driver = Memory.driver) (hid : s.keyRule.convertId = false)
    (hq : s.keyRule.Unselective q) (h : q'.Reselects q) (one : Bool) :
    ((s.keyRule.find q' one).bind fun p => s.fetched q' (.find p)) = (s.ordered q).map fun docs =>
      (window (some (if one then 1 else q.limitValue)) q.skip docs).map
        (Value.project (Keyed.ofList (q'.selectedFields.map fun e => (s.keyRule.storedName e.1, e.2)))) := by
  have hordered : s.ordered q' = s.ordered q := by
    unfold ordered
    rw [hq q' h]
    obtain ⟨selection, rfl⟩ := h
    rfl
  have hshape : s.keyRule.shape q' =
      Value.project (Keyed.ofList (q'.selectedFields.map fun e => (s.keyRule.storedName e.1, e.2))) := by
    funext doc
    unfold KeyRule.shape
    rw [hid]
    rfl
  rw [fetched_eq_window hm, hordered, hshape]
  obtain ⟨selection, rfl⟩ := h
  rfl

theorem storedName_of_trim (hid : s.keyRule.convertId = false) (htrim : Text.trim field = field) :
    s.keyRule.storedName field = field := by
  unfold KeyRule.storedName
  rw [hid, htrim]
  simp

theorem present_getD (v : Option Value) : present (v.getD .null) = v.bind present := by
  cases v <;> rfl

theorem reduced_on (hc : q.cache = none) (one : Bool) (kind : String) (reduce : List Value → Value) :
    ((do
      let p ← compiled (·.find q one)
      cached q kind p.toValue do return reduce (← fetch q p) : Run (Session Memory) Value).on s).1 =
      ((s.keyRule.find q one).bind fun p => s.fetched q (.find p)).map reduce := by
  unfold cached
  rw [Run.on_bind, Read.compiled_on, hc]
  cases s.keyRule.find q one with
  | error e => rfl
  | ok p =>
    simp only [Except.bind, fetched, Plan.fetch]
    rw [Run.fst_on_map]

/-- **The value of a field is read from the first row, narrowed to it.** -/
theorem value_on (hm : s.pool.driver = Memory.driver) (hc : q.cache = none) (hid : s.keyRule.convertId = false)
    (hq : s.keyRule.Unselective q) (htrim : Text.trim field = field) : ((value q field).on s).1 =
      (s.ordered q).map fun docs => (window (some q.limitValue) q.skip docs).head?.bind fun doc =>
        present (valueAt field (doc.project [(field, .int 1)])) := by
  have hread := reduced_on (s := s) ((q.reselects_select (.ofNames [field]) false).cache.trans hc) true "value"
    fun rows => ((rows.head?).map (valueAt field)).getD .null
  unfold value
  simp only [← bind_assoc]
  rw [Run.fst_on_map, hread, fetched_reselected hm hid hq (q.reselects_select _ _), q.selectedFields_names htrim,
    List.map_singleton, storedName_of_trim hid htrim]
  cases s.ordered q with
  | error e => rfl
  | ok docs =>
    refine congrArg Except.ok ?_
    simp only [if_true, List.head?_map, head?_window_one (some q.limitValue), present_getD, Option.map_map]
    cases (window (some q.limitValue) q.skip docs).head? <;> rfl

/-- **The column of a field is read from all rows, narrowed to it.** -/
theorem column_on (hm : s.pool.driver = Memory.driver) (hc : q.cache = none) (hid : s.keyRule.convertId = false)
    (hq : s.keyRule.Unselective q) (htrim : Text.trim field = field) (hcomma : Text.hasChar ',' field = false) :
    ((column q field "").on s).1 = (s.ordered q).map fun docs =>
      .arr ((window (some q.limitValue) q.skip docs).map fun doc =>
        valueAt field (doc.project (if field = "*" ∨ field = "" then [] else [(field, .int 1)]))) := by
  have hread := reduced_on (s := s) ((q.reselects_select (.ofText field) false).cache.trans hc) false "column"
    (columnOf field "")
  have hfields : Keyed.ofList ((q.select (.ofText field) false).selectedFields.map fun e =>
      (s.keyRule.storedName e.1, e.2)) = if field = "*" ∨ field = "" then [] else [(field, .int 1)] := by
    rw [q.selectedFields_text htrim hcomma]
    split
    · rfl
    · rw [List.map_singleton, storedName_of_trim hid htrim]
      rfl
  rw [column, show columnFields field "" = field from rfl, hread,
    fetched_reselected hm hid hq (q.reselects_select _ _), hfields]
  cases s.ordered q with
  | error e => rfl
  | ok docs =>
    simp only [Except.map, columnOf, List.map_map, if_true, Bool.false_eq_true, if_false]
    rfl

theorem getD_present (v : Value) : (present v).getD .null = v := by
  cases v <;> rfl

theorem present_injective : Function.Injective present := fun v w h => by
  rw [← getD_present v, h, getD_present]

theorem valueAt_columned_iff (field : String) (row : Value) :
    valueAt field (row.project (if field = "*" ∨ field = "" then [] else [(field, .int 1)])) = valueAt field row ↔
      Shows field row := by
  by_cases hall : field = "*" ∨ field = ""
  · rw [if_pos hall]
    refine iff_of_true rfl (.inl ?_)
    rcases hall with rfl | rfl <;> decide
  · rw [if_neg hall]
    exact valueAt_narrowed_iff field row

end

end Session

namespace Query

section

variable {s : Session Memory} {q : Request} {field : String}

theorem select_all_on (hs : s.Quiet) (hid : s.keyRule.convertId = false) (hc : q.cache = none)
    (hq : s.keyRule.Unselective (s.finalize q)) : (select.on ⟨s, q.select .all false⟩).1 =
      (s.ordered (s.finalize q)).map fun docs =>
        window (some (s.finalize q).limitValue) (s.finalize q).skip docs := by
  have hall : (s.finalize (q.select .all false)).Reselects (s.finalize q) := ⟨_, rfl⟩
  rw [select_fst, Session.select_on_eq hs.listeners (hall.cache.trans hc),
    Session.fetched_reselected hs.driver hid hq hall]
  exact congrArg (fun f => Except.map f (s.ordered (s.finalize q))) (funext fun docs => List.map_id _)

/-- **The value and the column of a field are those of the rows that are selected with all fields, just as far as these
rows show the field when they are narrowed to it**; or all three reads fail alike. -/
theorem field_reads_iff (hs : s.Quiet) (hid : s.keyRule.convertId = false) (hc : q.cache = none)
    (hq : s.keyRule.Unselective (s.finalize q)) (htrim : Text.trim field = field)
    (hcomma : Text.hasChar ',' field = false) :
    (∃ rows v c, (select.on ⟨s, q.select .all false⟩).1 = .ok rows ∧
      ((finalized (Session.value · field)).on ⟨s, q⟩).1 = .ok v ∧ ((column field "").on ⟨s, q⟩).1 = .ok c ∧
      (v = rows.head?.bind (fun row => Session.present (Session.valueAt field row)) ↔
        ∀ row ∈ rows.head?, Session.Shows field row) ∧
      (c = .arr (rows.map (Session.valueAt field)) ↔ ∀ row ∈ rows, Session.Shows field row)) ∨
    ∃ e, (select.on ⟨s, q.select .all false⟩).1 = .error e ∧
      ((finalized (Session.value · field)).on ⟨s, q⟩).1 = .error e ∧ ((column field "").on ⟨s, q⟩).1 = .error e := by
  have hcache : (s.finalize q).cache = none := hc
  rw [select_all_on hs hid hc hq, column, finalized_on, finalized_on]
  simp only [Session.value_on hs.driver hcache hid hq htrim, Session.column_on hs.driver hcache hid hq htrim hcomma]
  cases s.ordered (s.finalize q) with
  | error e => exact .inr ⟨e, rfl, rfl, rfl⟩
  | ok docs =>
    simp only [Except.map]
    generalize window (some (s.finalize q).limitValue) (s.finalize q).skip docs = rows
    refine .inl ⟨rows, _, _, rfl, rfl, rfl, ?_, ?_⟩
    · cases rows.head? with
      | none => simp
      | some row =>
        rw [Option.bind_some, Option.bind_some, Session.present_injective.eq_iff, Session.valueAt_narrowed_iff]
        simp
    · rw [Value.arr.injEq, List.map_inj_left]
      exact forall₂_congr fun row _ => Session.valueAt_columned_iff field row

end

def nestedSession : Session Memory :=
  Walk.stored Walk.freshSession ⟨"app", "t"⟩ [.obj [("_id", .int 1), ("a", .obj [("b", .int 2)])]]

theorem field_reads_iff_undotted : nestedSession.Quiet ∧ nestedSession.keyRule.convertId = false ∧
    nestedSession.keyRule.Unselective (nestedSession.finalize { table := some "t" }) ∧ Text.trim "a" = "a" ∧
    Text.hasChar ',' "a" = false ∧
    ((finalized (Session.value · "a")).on ⟨nestedSession, { table := some "t" }⟩).1 =
      .ok (some (.obj [("b", .int 2)])) ∧
    ((column "a" "").on ⟨nestedSession, { table := some "t" }⟩).1 = .ok (.arr [.obj [("b", .int 2)]]) := by
  have hplain : nestedSession.keyRule.Unselective (nestedSession.finalize { table := some "t" }) :=
    KeyRule.unselective_of_plain fun _ he => absurd he List.not_mem_nil
  have hselect : (select.on ⟨nestedSession, ({ table := some "t" } : Request).select .all false⟩).1 =
      .ok [.obj [("_id", .int 1), ("a", .obj [("b", .int 2)])]] := rfl
  refine ⟨⟨rfl, rfl⟩, rfl, hplain, rfl, rfl, ?_⟩
  obtain ⟨rows, v, c, hrows, hv, hc, hvalue, hcolumn⟩ | ⟨e, he, -⟩ :=
    field_reads_iff (s := nestedSession) (q := { table := some "t" }) ⟨rfl, rfl⟩ rfl rfl hplain
      (show Text.trim "a" = "a" from rfl) rfl
  · cases hselect.symm.trans hrows
    rw [hv, hc, hvalue.2 fun _ _ => .inl rfl, hcolumn.2 fun _ _ => .inl rfl]
    exact ⟨rfl, rfl⟩
  · cases hselect.symm.trans he

/-- **A path with a dot is lost**: there is something at its end, but the value of the first row is nothing and the
column is filled with `null`. -/
theorem dotted_path_is_lost : nestedSession.Quiet ∧ nestedSession.keyRule.convertId = false ∧
    Text.trim "a.b" = "a.b" ∧ Text.hasChar ',' "a.b" = false ∧
    (∃ rows, (select.on ⟨nestedSession, ({ table := some "t" } : Request).select .all false⟩).1 = .ok rows ∧
      rows.head?.bind (fun row => Session.present (Session.valueAt "a.b" row)) = some (.int 2) ∧
      rows.map (Session.valueAt "a.b") = [.int 2]) ∧
    ((finalized (Session.value · "a.b")).on ⟨nestedSession, { table := some "t" }⟩).1 = .ok none ∧
    ((column "a.b" "").on ⟨nestedSession, { table := some "t" }⟩).1 = .ok (.arr [.null]) :=
  ⟨⟨rfl, rfl⟩, rfl, rfl, rfl, ⟨_, rfl, rfl, rfl⟩, rfl, rfl⟩

end Query

end DocQuery
