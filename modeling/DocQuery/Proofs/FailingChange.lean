import DocQuery.Proofs.ArrayTarget
import DocQuery.Proofs.Bulk
import DocQuery.Proofs.PathsApart
import DocQuery.Proofs.StoredId

/-!
# What a failing change leaves

A change takes one step after the other, a step being one operator at one path, and the first step that fails ends it;
what the steps before it made stays (`Change.runSteps_failed`).  So a failing change leaves a document as it was just if
these steps came back to it, and a failing update leaves every document whole just if its change does so wherever its
filter holds (`Store.failing_update_leaves_whole`).  With paths apart that is on all documents so just if no step but
the first can fail.
-/
namespace DocQuery

namespace Change

/-- **Edits at paths that are apart from another one leave alone what is there.** -/
theorem Edited.throughObjects? {paths : String → Prop} {d d' : Value} (h : Edited paths d d') (hd : d.WellFormed)
    {q : List String} (hpaths : ∀ path, paths path → Value.Apart (Path.ofText path) q) :
    d'.throughObjects? q = d.throughObjects? q := by
  induction h with
  | refl => rfl
  | set _ hp _ ih => exact (Value.throughObjects?_setAt (hpaths _ hp) _ _).trans ih
  | @remove d' path h hp ih =>
    have hapart := hpaths path hp
    rw [Value.ofText_eq_concat] at hapart
    exact (Value.throughObjects?_dropAt hapart (h.wellFormed hd)).trans ih
  | items _ hp _ ih => exact (Value.throughObjects?_modifyAt (hpaths _ hp) _).trans ih

/-! ## Steps -/

def sureOperators : List String := ["$set", "$unset", "$pop", "$pull", "$pullAll"]

/-- The operators that need a number or an array at their path, if there is something. -/
def choosyOperators : List String := ["$inc", "$push", "$pushAll", "$addToSet"]

/-- A step of a change: an operator at a path, or an operator that was not given its fields. -/
inductive Step where
  | act (op path : String) (operand : Value)
  | stray (op : String)

namespace Step

def run : Step → Value → Except ChangeFault Value
  | act op path operand, doc => operate op path operand doc
  | stray op, _ => .error (.operatorShape op)

def path? : Step → Option String
  | act _ path _ => some path
  | stray _ => none

def WellFormed : Step → Prop
  | act _ _ operand => operand.WellFormed
  | stray _ => True

def Apart (s t : Step) : Prop :=
  ∀ p q, s.path? = some p → t.path? = some q → Value.Apart (Path.ofText p) (Path.ofText q)

/-- A step that can be taken on every document. -/
def isSure : Step → Bool
  | act op _ _ => sureOperators.contains op
  | stray _ => false

/-- A step that can be taken on no document. -/
def isHopeless : Step → Bool
  | act op _ _ => !(sureOperators ++ choosyOperators).contains op
  | stray _ => true

end Step

def steps : List (String × Value) → List Step
  | [] => []
  | (op, .obj fields) :: r => fields.map (fun e => .act op e.1 e.2) ++ steps r
  | (op, _) :: r => .stray op :: steps r

/-- The steps of a change; one that is no document of operators has none. -/
def stepsOf : Value → List Step
  | .obj fs => if isOperators fs then steps fs else []
  | _ => []

/-- Takes steps: the document as far as they got, and why they got no further. -/
def runSteps : List Step → Value → Value × Option ChangeFault
  | [], doc => (doc, none)
  | s :: r, doc =>
    match s.run doc with
    | .ok new => runSteps r new
    | .error f => (doc, some f)

theorem runSteps_acts (op : String) (r : List Step) : ∀ (fields : List (String × Value)) (doc : Value),
    runSteps (fields.map (fun e => .act op e.1 e.2) ++ r) doc = match operateAll op fields doc with
      | (new, none) => runSteps r new
      | (new, some f) => (new, some f)
  | [], _ => rfl
  | (path, operand) :: fields, doc => by
    rw [List.map_cons, List.cons_append, runSteps, operateAll, Step.run]
    cases operate op path operand doc with
    | ok new => exact runSteps_acts op r fields new
    | error f => rfl

/-- **Operators take their steps one after the other.** -/
theorem run_eq : ∀ (fs : List (String × Value)) (doc : Value), run fs doc = runSteps (steps fs) doc
  | [], _ => rfl
  | (op, v) :: fs, doc => by
    cases v with
    | obj fields =>
      rw [run, steps, runSteps_acts]
      rcases operateAll op fields doc with ⟨new, _ | f⟩
      · exact run_eq fs new
      · rfl
    | _ => rfl

theorem runSteps_failed {e : ChangeFault} : ∀ {ss : List Step} {doc new : Value}, runSteps ss doc = (new, some e) ↔
    ∃ done last rest, ss = done ++ last :: rest ∧ runSteps done doc = (new, none) ∧ last.run new = .error e
  | [], doc, new => by simp [runSteps]
  | s :: ss, doc, new => by
    rw [runSteps]
    cases hs : s.run doc with
    | error f =>
      constructor
      · intro h
        cases h
        exact ⟨[], s, ss, rfl, rfl, hs⟩
      · rintro ⟨done, last, rest, hsplit, hdone, hlast⟩
        cases done with
        | nil =>
          cases hsplit
          cases hdone
          rw [hs] at hlast
          cases hlast
          rfl
        | cons t done =>
          cases hsplit
          rw [runSteps, hs] at hdone
          cases hdone
    | ok doc' =>
      refine runSteps_failed.trans ⟨?_, ?_⟩
      · rintro ⟨done, last, rest, rfl, hdone, hlast⟩
        exact ⟨s :: done, last, rest, rfl, by rw [runSteps, hs]; exact hdone, hlast⟩
      · rintro ⟨done, last, rest, hsplit, hdone, hlast⟩
        cases done with
        | nil =>
          cases hsplit
          cases hdone
          rw [hs] at hlast
          cases hlast
        | cons t done =>
          cases hsplit
          rw [runSteps, hs] at hdone
          exact ⟨done, last, rest, rfl, hdone, hlast⟩

/-- Whatever steps of a change were taken in front of one that fails, the document is what it was. -/
def Rewinds (change doc : Value) : Prop :=
  ∀ done last rest new e, stepsOf change = done ++ last :: rest → runSteps done doc = (new, none) →
    last.run new = .error e → new = doc

/-- **A failing change leaves a document as it was just if its steps in front of the failing one do.** -/
theorem unchanged_iff_rewinds (change doc : Value) :
    (∀ e, (apply change doc).2 = .error e → (apply change doc).1 = doc) ↔ Rewinds change doc := by
  have hrewinds : Rewinds change doc ↔ ∀ new e, runSteps (stepsOf change) doc = (new, some e) → new = doc := by
    constructor
    · intro h new e hfail
      obtain ⟨done, last, rest, hsplit, hdone, hlast⟩ := runSteps_failed.1 hfail
      exact h done last rest new e hsplit hdone hlast
    · intro h done last rest new e hsplit hdone hlast
      exact h new e (runSteps_failed.2 ⟨done, last, rest, hsplit, hdone, hlast⟩)
  rw [hrewinds]
  cases change with
  | obj fs =>
    rw [apply, stepsOf]
    by_cases hops : isOperators fs = true
    · rw [if_pos hops, if_pos hops, run_eq]
      rcases runSteps (steps fs) doc with ⟨new, _ | f⟩
      · simp
      · simp
    · rw [if_neg hops, if_neg hops]
      simp [runSteps]
  | _ => simp [apply, stepsOf, runSteps]

/-! ## Which steps can fail -/

theorem Step.succeeds_of_sure {s : Step} (h : s.isSure = true) (doc : Value) : ∃ new, s.run doc = .ok new := by
  cases s with
  | stray op => cases h
  | act op path operand =>
    have hop : op = "$set" ∨ op = "$unset" ∨ op = "$pop" ∨ op = "$pull" ∨ op = "$pullAll" := by
      simpa [isSure, sureOperators] using h
    rcases hop with rfl | rfl | rfl | rfl | rfl
    all_goals exact ⟨_, rfl⟩

theorem operate_unknown {op : String} (path : String) (operand doc : Value)
    (h : (sureOperators ++ choosyOperators).contains op = false) :
    operate op path operand doc = .error (.operator op) := by
  unfold operate
  split
  all_goals first | rfl | cases h

theorem Step.fails_of_hopeless {s : Step} (h : s.isHopeless = true) (doc : Value) : ∃ e, s.run doc = .error e := by
  cases s with
  | stray op => exact ⟨_, rfl⟩
  | act op path operand => exact ⟨_, operate_unknown path operand doc (by rwa [isHopeless, Bool.not_eq_true'] at h)⟩

theorem editArray_null {doc : Value} {path : String} (op : String)
    (h : doc.throughObjects? (Path.ofText path) = some .null) (edit : List Value → List Value) :
    editArray op path doc edit = .error (.notAnArray op path) := by
  have hthere : withTarget doc path = doc := by
    rw [withTarget, Value.path?, Value.at?_of_throughObjects? h]
  rw [editArray, hthere, target?, h]
  rfl

/-- **A step that is not sure fails where its path leads to null.** -/
theorem Step.fails_on_null {s : Step} (h : s.isSure = false) {doc : Value}
    (hnull : ∀ path, s.path? = some path → doc.throughObjects? (Path.ofText path) = some .null) :
    ∃ e, s.run doc = .error e := by
  cases s with
  | stray op => exact ⟨_, rfl⟩
  | act op path operand =>
    have hthere := hnull path rfl
    rw [Step.run]
    unfold operate
    split
    · cases h
    · cases h
    · rw [increment, Value.path?, Value.at?_of_throughObjects? hthere]
      exact ⟨_, rfl⟩
    · exact ⟨_, editArray_null _ hthere _⟩
    · exact ⟨_, editArray_null _ hthere _⟩
    · exact ⟨_, editArray_null _ hthere _⟩
    · cases h
    · cases h
    · cases h
    · exact ⟨_, rfl⟩

/-- **A step that is not hopeless changes some document**: one that has nothing at its path, or null. -/
theorem Step.changes_some {op path : String} {operand doc : Value} (h : (Step.act op path operand).isHopeless = false)
    (hd : doc.WellFormed) (hnone : doc.path? path = none) : ∃ d', (d' = doc ∨ d' = doc.setPath path .null) ∧
      ∃ new, operate op path operand d' = .ok new ∧
        new.throughObjects? (Path.ofText path) ≠ d'.throughObjects? (Path.ofText path) := by
  have hempty : doc.throughObjects? (Path.ofText path) = none := by
    cases hu : doc.throughObjects? (Path.ofText path) with
    | none => rfl
    | some u =>
      rw [Value.path?, Value.at?_of_throughObjects? hu] at hnone
      cases hnone
  have hput : ∀ v : Value, (doc.setPath path v).throughObjects? (Path.ofText path) = some v := fun v =>
    Value.throughObjects?_setAt_self _ _ _
  -- whatever is put at the path was not there before
  have hmade : ∀ {new v : Value}, operate op path operand doc = .ok new →
      new.throughObjects? (Path.ofText path) = some v → ∃ d', (d' = doc ∨ d' = doc.setPath path .null) ∧
        ∃ new, operate op path operand d' = .ok new ∧
          new.throughObjects? (Path.ofText path) ≠ d'.throughObjects? (Path.ofText path) := fun hnew hv =>
    ⟨doc, .inl rfl, _, hnew, by rw [hv, hempty]; exact Option.some_ne_none _⟩
  have harray : ∀ edit, editArray op path doc edit =
      .ok (setItems (doc.setPath path (.arr [])) path (edit [])) := fun edit => by
    rw [editArray, withTarget_absent hnone, target?_setPath]
  have hshrunk : ∀ edit, shrinkArray path doc edit =
      setItems (doc.setPath path (.arr [])) path (edit []) := fun edit => by
    rw [shrinkArray, withTarget_absent hnone, target?_setPath]
  have hop : op ∈ sureOperators ++ choosyOperators := by
    rw [Step.isHopeless, Bool.not_eq_false'] at h
    exact List.contains_iff_mem.1 h
  simp only [sureOperators, choosyOperators, List.cons_append, List.nil_append, List.mem_cons, List.not_mem_nil,
    or_false] at hop
  rcases hop with rfl | rfl | rfl | rfl | rfl | rfl | rfl | rfl | rfl
  · exact hmade rfl (hput _)
  · refine ⟨_, .inr rfl, _, rfl, ?_⟩
    have hgone := Value.throughObjects?_dropAt_self ((Path.ofText path).getLastD "")
      (Path.ofText path).dropLast (hd.setAt (Path.ofText path) .null)
    rw [← Value.ofText_eq_concat] at hgone
    rw [hput, Value.removePath, Value.setPath, hgone]
    exact (Option.some_ne_none _).symm
  · exact hmade (congrArg Except.ok (hshrunk _)) (throughObjects?_setItems (hput _) _)
  · exact hmade (congrArg Except.ok (hshrunk _)) (throughObjects?_setItems (hput _) _)
  · exact hmade (congrArg Except.ok (hshrunk _)) (throughObjects?_setItems (hput _) _)
  · have hput' : operate "$inc" path operand doc = .ok (doc.setPath path operand) := by
      rw [show operate "$inc" path operand doc = increment doc path operand from rfl, increment, hnone]
    exact hmade hput' (hput _)
  · exact hmade (harray _) (throughObjects?_setItems (hput _) _)
  · exact hmade (harray _) (throughObjects?_setItems (hput _) _)
  · exact hmade (harray _) (throughObjects?_setItems (hput _) _)

/-! ## Changes that rewind everywhere -/

/-- No step but the first can fail, unless that one always does. -/
def OnlyFirstFails : List Step → Prop
  | [] => True
  | s :: rest => s.isHopeless = true ∨ ∀ t ∈ rest, t.isSure = true

theorem rewinds_of_onlyFirstFails {change : Value} (h : OnlyFirstFails (stepsOf change)) (doc : Value) :
    Rewinds change doc := by
  intro done last rest new e hsplit hdone hlast
  rw [hsplit] at h
  cases done with
  | nil =>
    cases hdone
    rfl
  | cons s done =>
    rcases h with hhopeless | hsure
    · obtain ⟨f, hf⟩ := Step.fails_of_hopeless hhopeless doc
      rw [runSteps, hf] at hdone
      cases hdone
    · obtain ⟨new', hnew⟩ := Step.succeeds_of_sure (hsure last (by simp)) new
      rw [hlast] at hnew
      cases hnew

theorem runSteps_sure : ∀ {ss : List Step}, (∀ s ∈ ss, s.isSure = true) → ∀ doc, ∃ new, runSteps ss doc = (new, none)
  | [], _, doc => ⟨doc, rfl⟩
  | s :: ss, h, doc => by
    obtain ⟨hs, hss⟩ := List.forall_mem_cons.1 h
    obtain ⟨new, hnew⟩ := Step.succeeds_of_sure hs doc
    rw [runSteps, hnew]
    exact runSteps_sure hss new

theorem edited_runSteps {paths : String → Prop} {d : Value} (hd : d.WellFormed) : ∀ {ss : List Step} {doc new : Value},
    (∀ s ∈ ss, s.WellFormed ∧ ∀ path, s.path? = some path → paths path) → Edited paths d doc →
    runSteps ss doc = (new, none) → Edited paths d new
  | [], doc, new, _, h, hrun => by
    cases hrun
    exact h
  | s :: ss, doc, new, hss, h, hrun => by
    obtain ⟨hs, hrest⟩ := List.forall_mem_cons.1 hss
    rw [runSteps] at hrun
    cases hstep : s.run doc with
    | error e =>
      rw [hstep] at hrun
      cases hrun
    | ok doc' =>
      rw [hstep] at hrun
      cases s with
      | stray op => cases hstep
      | act op path operand => exact edited_runSteps hd hrest (edited_operate hd hs.1 h (hs.2 path rfl) hstep) hrun

theorem wellFormed_steps : ∀ {fs : List (String × Value)}, (∀ e ∈ fs, e.2.WellFormed) → ∀ s ∈ steps fs, s.WellFormed
  | [], _, s, hs => by cases hs
  | (op, v) :: fs, h, s, hs => by
    obtain ⟨hv, hfs⟩ := List.forall_mem_cons.1 h
    have hrest := wellFormed_steps hfs
    cases v with
    | obj fields =>
      rcases List.mem_append.1 hs with hs | hs
      · obtain ⟨e, he, rfl⟩ := List.mem_map.1 hs
        cases hv with
        | obj _ hwf => exact hwf e he
      · exact hrest s hs
    | _ =>
      rcases List.mem_cons.1 hs with rfl | hs
      · trivial
      · exact hrest s hs

theorem wellFormed_stepsOf {change : Value} (h : change.WellFormed) : ∀ s ∈ stepsOf change, s.WellFormed := by
  cases h with
  | obj _ hwf =>
    rw [stepsOf]
    split
    · exact wellFormed_steps hwf
    · exact fun _ hs => by cases hs
  | _ => exact fun _ hs => by cases hs

theorem exists_blocked (p : String) (s : Step)
    (hapart : ∀ q, s.path? = some q → Value.Apart (Path.ofText p) (Path.ofText q)) : ∃ d : Value, d.WellFormed ∧
      d.path? p = none ∧ ∀ q, s.path? = some q → d.throughObjects? (Path.ofText q) = some .null := by
  have hempty : (Value.obj []).WellFormed := .obj List.nodup_nil fun _ he => by cases he
  cases s with
  | stray op =>
    obtain ⟨segment, rest, hpath⟩ := Value.ofText_eq_cons p
    refine ⟨.obj [], hempty, ?_, fun q hq => by cases hq⟩
    rw [Value.path?, hpath]
    rfl
  | act op q operand =>
    refine ⟨(Value.obj []).setPath q .null, hempty.setAt _ .null, ?_, fun q' hq' => ?_⟩
    · exact Value.at?_setAt_empty (hapart q rfl).symm .null
    · obtain rfl : q = q' := Option.some.inj hq'
      exact Value.throughObjects?_setAt_self _ _ _

/-- **What a first step did stays where a later one fails**: some document is in the way of a step that is not sure, but
neither of the step in front nor of the sure ones between them, if all paths are apart. -/
theorem exists_stuck {op p : String} {operand : Value} {between : List Step} {last : Step}
    (hhope : (Step.act op p operand).isHopeless = false) (hbetween : ∀ t ∈ between, t.isSure = true)
    (hlast : last.isSure = false) (hwf : ∀ t ∈ Step.act op p operand :: between, t.WellFormed)
    (hfirst : ∀ t ∈ last :: between, Step.Apart (.act op p operand) t) (hends : ∀ t ∈ between, Step.Apart t last) :
    ∃ d new e, runSteps (.act op p operand :: between) d = (new, none) ∧ last.run new = .error e ∧ new ≠ d := by
  obtain ⟨hfirstLast, hfirstBetween⟩ := List.forall_mem_cons.1 hfirst
  obtain ⟨hact, hwfBetween⟩ := List.forall_mem_cons.1 hwf
  obtain ⟨base, hbase, hnone, hnull⟩ := exists_blocked p last fun q hq => hfirstLast p q rfl hq
  obtain ⟨d, hd, new, hnew, hchanged⟩ := Step.changes_some hhope hbase hnone
  have hdwf : d.WellFormed := by
    rcases hd with rfl | rfl
    · exact hbase
    · exact hbase.setAt _ .null
  have hone : Edited (· = p) d new := edited_operate hdwf hact .refl rfl hnew
  obtain ⟨new', hnew'⟩ := runSteps_sure hbetween new
  have hmore : Edited (fun path => ∃ t ∈ between, t.path? = some path) new new' :=
    edited_runSteps (hone.wellFormed hdwf)
      (fun t ht => ⟨hwfBetween t ht, fun path hpath => ⟨t, ht, hpath⟩⟩) .refl hnew'
  -- the step that fails still meets null, and what the first step changed is still changed
  have hblocked : ∀ q, last.path? = some q → new'.throughObjects? (Path.ofText q) = some .null := by
    intro q hq
    have hpq : Value.Apart (Path.ofText p) (Path.ofText q) := hfirstLast p q rfl hq
    rw [hmore.throughObjects? (hone.wellFormed hdwf) (fun path ⟨t, ht, hpath⟩ => hends t ht path q hpath hq),
      hone.throughObjects? hdwf (fun path hpath => hpath ▸ hpq)]
    rcases hd with rfl | rfl
    · exact hnull q hq
    · rw [Value.setPath, Value.throughObjects?_setAt hpq]
      exact hnull q hq
  have hkept : new'.throughObjects? (Path.ofText p) = new.throughObjects? (Path.ofText p) :=
    hmore.throughObjects? (hone.wellFormed hdwf) fun path ⟨t, ht, hpath⟩ =>
      (hfirstBetween t ht p path rfl hpath).symm
  obtain ⟨e, he⟩ := Step.fails_on_null hlast hblocked
  refine ⟨d, new', e, ?_, he, ?_⟩
  · rw [runSteps, Step.run, hnew]
    exact hnew'
  · rintro rfl
    exact hchanged hkept.symm

/-- **With paths apart, a change rewinds on all documents only if no step but the first can fail.** -/
theorem onlyFirstFails_of_rewinds {change : Value} (hc : change.WellFormed)
    (hapart : (stepsOf change).Pairwise Step.Apart) (h : ∀ doc, Rewinds change doc) :
    OnlyFirstFails (stepsOf change) := by
  have hwf := wellFormed_stepsOf hc
  unfold Rewinds at h
  cases hsteps : stepsOf change with
  | nil => trivial
  | cons s rest =>
    rw [hsteps] at hapart hwf h
    cases hfind : rest.find? (fun t => !t.isSure) with
    | none =>
      right
      intro t ht
      simpa using List.find?_eq_none.1 hfind t ht
    | some last =>
      left
      rw [← Bool.not_eq_false]
      intro hhope
      -- the first step behind the head that can fail, and the sure steps before it
      obtain ⟨hlast, between, after, rfl, hbetween⟩ := List.find?_eq_some_iff_append.1 hfind
      obtain ⟨hfirst, hrest⟩ := List.pairwise_cons.1 hapart
      have hends := (List.pairwise_append.1 hrest).2.2
      cases s with
      | stray op => cases hhope
      | act op p operand =>
        obtain ⟨d, new, e, hrun, he, hne⟩ := exists_stuck hhope (fun t ht => by simpa using hbetween t ht)
          (by simpa using hlast) (fun t ht => hwf t (List.mem_append_left (last :: after) ht))
          (List.forall_mem_cons.2 ⟨hfirst last (by simp), fun t ht => hfirst t (List.mem_append_left _ ht)⟩)
          (fun t ht => hends t ht last List.mem_cons_self)
        exact hne (h d (.act op p operand :: between) last after new e rfl hrun he)

end Change

/-! ## Failing updates -/

namespace Write

def Whole (change new old : Value) : Prop := new = old ∨ ∃ changed, Change.apply change old = (new, .ok changed)

section

variable {change : Value}

theorem whole_updateMatches {f : Filter} (multi : Bool)
    (h : ∀ doc, f.holds doc = true → Change.Rewinds change doc) (docs : List Value) :
    List.Forall₂ (Whole change) (updateMatches f change multi docs).docs docs := by
  refine forall₂_updateMatches (fun d _ => .inl rfl) fun d _ hholds => ?_
  rcases happly : Change.apply change d with ⟨new, e | changed⟩
  · have hsame : (Change.apply change d).1 = d :=
      (Change.unchanged_iff_rewinds change d).2 (h d hholds) e (by rw [happly])
    rw [happly] at hsame
    exact .inl hsame
  · exact .inr ⟨changed, happly⟩

theorem docs_upsert_failed {filter : Value} {st st' : WriteState} {e : Fault}
    (h : upsert filter change st = (st', some e)) : st'.docs = st.docs := by
  unfold upsert at h
  split at h
  · cases h
    rfl
  · cases h

/-- **A failing update leaves whole documents** where its change rewinds. -/
theorem whole_update {filter : Value} {multi wantsUpsert : Bool} {st st' : WriteState} {e : Fault}
    (h : ∀ f, Filter.ofValue filter = .ok f → ∀ doc, f.holds doc = true → Change.Rewinds change doc)
    (hfail : update filter change multi wantsUpsert st = (st', some e)) :
    List.Forall₂ (Whole change) st'.docs st.docs := by
  unfold update at hfail
  split at hfail
  · cases hfail
    exact List.forall₂_same.2 fun d _ => .inl rfl
  · rename_i f hread
    have hwhole := whole_updateMatches multi (h f hread) st.docs
    simp only at hfail
    split at hfail
    · cases hfail
      exact hwhole
    · split at hfail
      · rw [docs_upsert_failed hfail]
        exact hwhole
      · cases hfail

end

end Write

namespace Store

theorem write_cons_failed {s : Store} {supply : IdSupply} {ns : Namespace} {w : WriteModel} {st : WriteState}
    {e : Fault} (h : Write.one ns { docs := s.documents ns, supply := supply } w = (st, some e)) (b : BulkWrite) :
    s.write supply ns (w :: b) = (s.setDocuments ns st.docs, st.supply, .error e) := by
  rw [write, Write.all, h]

theorem write_failed {s : Store} {supply : IdSupply} {ns : Namespace} {a : BulkWrite} {w : WriteModel} {r : WriteResult}
    {e : Fault} (hok : (s.write supply ns a).2.2 = .ok r) (hfail : (s.write supply ns (a ++ [w])).2.2 = .error e) :
    ∃ st st', (s.write supply ns a).1.documents ns = st.docs ∧ Write.one ns st w = (st', some e) ∧
      ∀ b, (s.write supply ns (a ++ w :: b)).1.documents ns = st'.docs := by
  unfold write at hok hfail ⊢
  simp only [Write.all_append, documents_setDocuments] at hok hfail ⊢
  rcases hall : Write.all ns a { docs := s.documents ns, supply := supply } with ⟨st, _ | f⟩
  · simp only [hall, Write.all] at hfail ⊢
    rcases hone : Write.one ns st w with ⟨st', _ | f⟩
    · rw [hone] at hfail
      cases hfail
    · rw [hone] at hfail
      cases hfail
      exact ⟨st, st', rfl, hone, fun _ => rfl⟩
  · rw [hall] at hok
    cases hok

/-- Wherever an update fails in a bulk, it leaves every document as the writes before it did, or changed as a whole. -/
def LeavesWhole (filter change : Value) : Prop :=
  ∀ (s : Store) (supply : IdSupply) (ns : Namespace) (a b : BulkWrite) (multi wantsUpsert : Bool) (r : WriteResult)
    (e : Fault), (s.write supply ns a).2.2 = .ok r →
    (s.write supply ns (a ++ [.update filter change multi wantsUpsert])).2.2 = .error e →
    List.Forall₂ (Write.Whole change)
      ((s.write supply ns (a ++ .update filter change multi wantsUpsert :: b)).1.documents ns)
      ((s.write supply ns a).1.documents ns)

theorem leavesWhole_iff (filter change : Value) : LeavesWhole filter change ↔
    ∀ f, Filter.ofValue filter = .ok f → ∀ doc, f.holds doc = true → Change.Rewinds change doc := by
  constructor
  · intro h f hread doc hholds
    rw [← Change.unchanged_iff_rewinds]
    intro e hfail
    obtain ⟨new, happly⟩ : ∃ new, Change.apply change doc = (new, .error e) := ⟨_, Prod.ext rfl hfail⟩
    -- a collection with nothing but the document
    let ns : Namespace := ⟨"", ""⟩
    let s : Store := Store.setDocuments [] ns [doc]
    let supply : IdSupply := ⟨ObjectId.stamped 0, 0⟩
    have hone : Write.one ns { docs := s.documents ns, supply := supply } (.update filter change false false) =
        ({ docs := [new], supply := supply, result := { matched := 1 } }, some e.fault) := by
      simp only [s, Write.one, Write.update, hread, documents_setDocuments, Write.updateMatches, hholds, if_true,
        happly]
    have hrun := write_cons_failed hone []
    have hwhole := h s supply ns [] [] false false {} e.fault rfl (by rw [List.nil_append, hrun])
    have hbefore : (s.write supply ns []).1.documents ns = [doc] := by
      rw [write, Write.all, documents_setDocuments, documents_setDocuments]
    rw [List.nil_append, hrun, documents_setDocuments, hbefore] at hwhole
    rw [happly]
    obtain hsame | ⟨changed, hchanged⟩ := (List.forall₂_cons.1 hwhole).1
    · exact hsame
    · rw [happly] at hchanged
      cases hchanged
  · intro h s supply ns a b multi wantsUpsert r e hok hfail
    obtain ⟨st, st', hbefore, hone, hafter⟩ := write_failed hok hfail
    rw [hbefore, hafter]
    exact Write.whole_update h hone

/-- **A failing change leaves the document as it was just if its steps in front of the failing one do, and a failing
update leaves every document whole just if its change does so wherever its filter holds.**  It does so on all documents
if no step but the first can fail; with paths apart, only then. -/
theorem failing_update_leaves_whole (filter change : Value) :
    (∀ doc, (∀ e, (Change.apply change doc).2 = .error e → (Change.apply change doc).1 = doc) ↔
      Change.Rewinds change doc) ∧
    (LeavesWhole filter change ↔
      ∀ f, Filter.ofValue filter = .ok f → ∀ doc, f.holds doc = true → Change.Rewinds change doc) ∧
    (Change.OnlyFirstFails (Change.stepsOf change) → ∀ doc, Change.Rewinds change doc) ∧
    (change.WellFormed → (Change.stepsOf change).Pairwise Change.Step.Apart → (∀ doc, Change.Rewinds change doc) →
      Change.OnlyFirstFails (Change.stepsOf change)) :=
  ⟨Change.unchanged_iff_rewinds change, leavesWhole_iff filter change, fun h => Change.rewinds_of_onlyFirstFails h,
    fun hc hapart h => Change.onlyFirstFails_of_rewinds hc hapart h⟩

def tagging : Value := .obj [("$push", .single "tags" (.str "x")), ("$set", .single "n" (.int 1))]

theorem wellFormed_tagging : tagging.WellFormed := by
  refine .obj (by decide) fun e he => ?_
  rcases List.mem_pair.1 he with rfl | rfl
  · exact Value.WellFormed.single (.str "x")
  · exact Value.WellFormed.single (.int 1)

theorem failing_update_leaves_whole_tagging : tagging.WellFormed ∧
    (Change.stepsOf tagging).Pairwise Change.Step.Apart ∧ Change.OnlyFirstFails (Change.stepsOf tagging) ∧
    LeavesWhole (.obj []) tagging ∧
    (Change.apply tagging (.single "tags" (.int 3))).2 = .error (.notAnArray "$push" "tags") ∧
    (Change.apply tagging (.single "tags" (.int 3))).1 = .single "tags" (.int 3) := by
  have hsteps : Change.stepsOf tagging = [.act "$push" "tags" (.str "x"), .act "$set" "n" (.int 1)] := rfl
  have hapart : (Change.stepsOf tagging).Pairwise Change.Step.Apart := by
    rw [hsteps, List.pairwise_pair]
    intro p q hp hq
    cases hp
    cases hq
    exact .inl (by decide)
  obtain ⟨hchange, hupdate, hif, honly⟩ := failing_update_leaves_whole (.obj []) tagging
  have hrewinds : ∀ doc, Change.Rewinds tagging doc := hif (.inr (List.forall_mem_singleton.2 rfl))
  exact ⟨wellFormed_tagging, hapart, honly wellFormed_tagging hapart hrewinds,
    hupdate.2 fun _ _ doc _ => hrewinds doc, rfl, (hchange (.single "tags" (.int 3))).2 (hrewinds _) _ rfl⟩

def raising : Value := .obj [("$set", .single "n" (.int 2)), ("$inc", .single "s" (.int 1))]

def stopping : Value := .obj [("_id", .int 1), ("n", .int 1), ("s", .str "x")]

/-- **What the first step made stays when the second one fails**, in the document and in the collection. -/
theorem failing_change_keeps_first_step :
    (Change.apply raising stopping).2 = .error (.notANumber "s") ∧
    (Change.apply raising stopping).1 = .obj [("_id", .int 1), ("n", .int 2), ("s", .str "x")] ∧
    (Change.apply raising stopping).1 ≠ stopping ∧
    (Store.write [] ⟨ObjectId.stamped 0, 0⟩ ⟨"app", "t"⟩
        [.insert stopping, .update (.single "_id" (.int 1)) raising false false]).1.documents ⟨"app", "t"⟩ =
      [.obj [("_id", .int 1), ("n", .int 2), ("s", .str "x")]] ∧
    ¬ LeavesWhole (.single "_id" (.int 1)) raising := by
  have hdiffers : (Change.apply raising stopping).1 ≠ stopping := by
    intro hsame
    have hn : Value.int 2 = .int 1 := congrArg (fun v => (v.field? "n").getD .null) hsame
    cases hn
  refine ⟨rfl, rfl, hdiffers, rfl, fun h => ?_⟩
  obtain ⟨f, hf⟩ : ∃ f, Filter.ofValue (.single "_id" (.int 1)) = .ok f := ⟨_, rfl⟩
  have hholds : f.holds stopping = true := by
    cases hf
    rfl
  have hrewinds : Change.Rewinds raising stopping := (leavesWhole_iff _ _).1 h f hf stopping hholds
  exact hdiffers ((Change.unchanged_iff_rewinds raising stopping).2 hrewinds _ rfl)

end Store

end DocQuery
