import DocQuery.Proofs.Keyed
import DocQuery.Value.Path

/-!
# Paths

A path has at least one segment, and one without a dot has no other (`Path.ofText_single`): reading, setting and
removing there is reading, setting and removing a field.  What was set at a path is read there again, and what was set
there before leaves no trace (`Value.setPath_put_laws`); it is what a change there finds (`Value.modifyAt_setAt`).
-/
namespace DocQuery

theorem Path.ofText_single {name : String} (h : Text.hasChar '.' name = false) : Path.ofText name = [name] :=
  Text.cut_eq_self h

theorem Path.undotted_of_head? {path first : String} (h : (Path.ofText path).head? = some first) :
    Text.hasChar '.' first = false := Text.hasChar_of_mem_cut (List.mem_of_head? h)

theorem Path.exists_ofText {segments : List String} (hne : segments ≠ [])
    (h : ∀ s ∈ segments, Text.hasChar '.' s = false) : ∃ path, Path.ofText path = segments :=
  ⟨_, Text.cut_join hne h⟩

namespace Value

theorem ofText_eq_cons (path : String) : ∃ segment rest, Path.ofText path = segment :: rest :=
  List.exists_cons_of_ne_nil (Text.cut_ne_nil '.' path)

theorem ofText_eq_concat (path : String) :
    Path.ofText path = (Path.ofText path).dropLast ++ [(Path.ofText path).getLastD ""] := by
  obtain ⟨segment, rest, hpath⟩ := ofText_eq_cons path
  rw [hpath, List.getLastD_cons, ← List.getLast_eq_getLastD]
  exact (List.dropLast_concat_getLast (List.cons_ne_nil segment rest)).symm

/-! ## Single names -/

theorem path?_single {name : String} (hn : Text.hasChar '.' name = false) (fs : Fields) :
    (obj fs).path? name = Keyed.get? fs name := by
  rw [path?, Path.ofText_single hn]
  simp only [at?, step?]
  cases Keyed.get? fs name <;> rfl

theorem path?_of_field? {doc v : Value} {name : String} (hn : Text.hasChar '.' name = false)
    (h : doc.field? name = some v) : doc.path? name = some v := by
  cases doc with
  | obj fs => exact (path?_single hn fs).trans h
  | _ => cases h

theorem setPath_single {name : String} (hn : Text.hasChar '.' name = false) (fs : Fields) (v : Value) :
    (obj fs).setPath name v = obj (Keyed.set fs name v) := by
  rw [setPath, Path.ofText_single hn]
  rfl

theorem removePath_single {name : String} (hn : Text.hasChar '.' name = false) (fs : Fields) :
    (obj fs).removePath name = obj (Keyed.swapErase fs name) := by
  rw [removePath, Path.ofText_single hn]
  rfl

/-! ## Paths through objects -/

theorem field?_eq (v : Value) (key : String) : v.field? key = Keyed.get? v.fieldsOrEmpty key := by
  cases v <;> rfl

theorem throughObjects?_obj (fs : Fields) (a : String) (q : List String) :
    (obj fs).throughObjects? (a :: q) = (Keyed.get? fs a).bind fun u => u.throughObjects? q := rfl

theorem throughObjects?_append : ∀ (p q : List String) (v : Value),
    v.throughObjects? (p ++ q) = (v.throughObjects? p).bind fun u => u.throughObjects? q
  | [], _, _ => rfl
  | a :: p, q, v => by
    rw [List.cons_append, throughObjects?, throughObjects?]
    cases v.field? a with
    | none => rfl
    | some u => exact throughObjects?_append p q u

theorem at?_obj (fs : Fields) (a : String) (q : List String) :
    (obj fs).at? (a :: q) = (Keyed.get? fs a).bind fun u => u.at? q := rfl

theorem at?_append : ∀ (p q : List String) (v : Value), v.at? (p ++ q) = (v.at? p).bind fun u => u.at? q
  | [], _, _ => rfl
  | a :: p, q, v => by
    rw [List.cons_append, at?, at?]
    cases v.step? a with
    | none => rfl
    | some u => exact at?_append p q u

theorem throughObjects?_setAt_cons (a : String) (p q : List String) (v w : Value) :
    (v.setAt (a :: p) w).throughObjects? (a :: q) =
      (((Keyed.get? v.fieldsOrEmpty a).getD (obj [])).setAt p w).throughObjects? q := by
  rw [setAt, throughObjects?_obj, Keyed.get?_set_self, Option.bind_some]

theorem throughObjects?_setAt_self : ∀ (p : List String) (v w : Value), (v.setAt p w).throughObjects? p = some w
  | [], _, _ => rfl
  | a :: p, v, w => by
    rw [throughObjects?_setAt_cons]
    exact throughObjects?_setAt_self p _ w

theorem at?_of_throughObjects? : ∀ {p : List String} {v u : Value}, v.throughObjects? p = some u → v.at? p = some u
  | [], _, _, h => h
  | a :: p, v, u, h => by
    obtain ⟨x, hx, hrest⟩ := Option.bind_eq_some_iff.1 h
    cases v with
    | obj fs =>
      rw [at?, show (obj fs).step? a = some x from hx, Option.bind_some]
      exact at?_of_throughObjects? hrest
    | _ => cases hx

/-- **What was set at a path is read there.** -/
theorem path?_setPath (v w : Value) (path : String) : (v.setPath path w).path? path = some w :=
  at?_of_throughObjects? (throughObjects?_setAt_self _ v w)

theorem setAt_setAt : ∀ (p : List String) (v w u : Value), (v.setAt p w).setAt p u = v.setAt p u
  | [], _, _, _ => rfl
  | a :: p, v, w, u => by
    have hfields : (v.setAt (a :: p) w).fieldsOrEmpty =
        Keyed.set v.fieldsOrEmpty a (((Keyed.get? v.fieldsOrEmpty a).getD (obj [])).setAt p w) := rfl
    rw [setAt, hfields, Keyed.get?_set_self, Option.getD_some, Keyed.set_set, setAt_setAt p]
    rfl

/-- **Setting a path obeys the laws of putting**: what was set last is read, and what was set before leaves no trace, be
the value an object or not. -/
theorem setPath_put_laws (v w u : Value) (path : String) :
    (v.setPath path w).path? path = some w ∧ (v.setPath path w).setPath path u = v.setPath path u :=
  ⟨path?_setPath v w path, setAt_setAt (Path.ofText path) v w u⟩

theorem exists_path? (path : String) (x : Option Value) : ∃ doc : Value, doc.path? path = x := by
  cases x with
  | some w => exact ⟨_, path?_setPath (obj []) w path⟩
  | none =>
    obtain ⟨segment, rest, hpath⟩ := ofText_eq_cons path
    refine ⟨obj [], ?_⟩
    rw [path?, hpath]
    rfl

/-! ## Changes where objects lead -/

theorem throughObjects?_modifyAt_cons (f : Value → Value) (a : String) (p q : List String) (fs : Fields) :
    ((obj fs).modifyAt f (a :: p)).throughObjects? (a :: q) =
      (Keyed.get? fs a).bind fun u => (u.modifyAt f p).throughObjects? q := by
  rw [modifyAt]
  cases hget : Keyed.get? fs a with
  | none => rw [throughObjects?_obj, hget, Option.bind_none, Option.bind_none]
  | some u => rw [throughObjects?_obj, Keyed.get?_set_self, Option.bind_some, Option.bind_some]

theorem throughObjects?_modifyAt_self {f : Value → Value} : ∀ {p : List String} {v u : Value},
    v.throughObjects? p = some u → (v.modifyAt f p).throughObjects? p = some (f u)
  | [], v, u, h => by
    rw [modifyAt, ← Option.some.inj h]
    rfl
  | a :: p, v, u, h => by
    obtain ⟨x, hx, hrest⟩ := Option.bind_eq_some_iff.1 h
    cases v with
    | obj fs =>
      rw [throughObjects?_modifyAt_cons, show Keyed.get? fs a = some x from hx]
      exact throughObjects?_modifyAt_self hrest
    | _ => cases hx

theorem modifyAt_eq_self {f : Value → Value} : ∀ {p : List String} {v : Value},
    (∀ u, v.throughObjects? p = some u → f u = u) → v.modifyAt f p = v
  | [], v, h => by
    rw [modifyAt]
    exact h v rfl
  | a :: p, v, h => by
    cases v with
    | obj fs =>
      rw [modifyAt]
      cases hget : Keyed.get? fs a with
      | none => rfl
      | some u =>
        have hu : u.modifyAt f p = u := modifyAt_eq_self fun x hx => h x (by
          rw [throughObjects?_obj, hget, Option.bind_some, hx])
        simp only [hu, Keyed.set_of_get?_some hget]
    | _ => rfl

theorem modifyAt_modifyAt (f g : Value → Value) : ∀ (p : List String) (v : Value),
    (v.modifyAt f p).modifyAt g p = v.modifyAt (fun u => g (f u)) p
  | [], v => by rw [modifyAt, modifyAt, modifyAt]
  | a :: p, v => by
    cases v with
    | obj fs =>
      rw [modifyAt, modifyAt]
      cases hget : Keyed.get? fs a with
      | none => simp only [modifyAt, hget]
      | some u =>
        simp only [modifyAt, Keyed.get?_set_self, Keyed.set_set]
        rw [modifyAt_modifyAt f g p u]
    | _ => rfl

theorem modifyAt_setAt (f : Value → Value) : ∀ (p : List String) (v w : Value),
    (v.setAt p w).modifyAt f p = v.setAt p (f w)
  | [], _, _ => by rw [setAt, setAt, modifyAt]
  | a :: p, v, w => by
    rw [setAt, setAt, modifyAt, Keyed.get?_set_self]
    simp only [Keyed.set_set]
    rw [modifyAt_setAt f p]

end Value

end DocQuery
