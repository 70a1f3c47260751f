import DocQuery.Proofs.Keyed
import DocQuery.Request

/-!
# Finalized requests

Finalizing leaves nothing to fill in (`Request.finalized_finalize`), and where there is nothing to fill in it changes
nothing, whatever the defaults are (`Request.Finalized.finalize_eq`).  So finalizing twice is finalizing once
(`Request.finalize_idempotent`).
-/
namespace DocQuery.Request

/-- Nothing is left to fill in: no default is missing, the comment and the time limit are among the modifiers, and a
page has become its window. -/
structure Finalized (q : Request) : Prop where
  table : q.table.isSome = true
  rowShape : q.rowShape.isSome = true
  master : q.master.isSome = true
  fetchCursor : q.fetchCursor.isSome = true
  limit : q.limit.isSome = true
  selection : q.selection = some (.fields q.selectedFields)
  comment : ∀ c, q.comment = some c → Keyed.get? q.modifiers "$comment" = some (.str c)
  maxTime : ∀ ms, q.maxTime = some ms → Keyed.get? q.modifiers "$maxTimeMS" = some (.ofNat ms)
  page : ∀ p, q.page = some p →
    q.skip = some (min (q.perPage p * ((max p.number 1).toNat - 1)) (Nat.pow 2 64 - 1)) ∧ q.limit = some (q.perPage p)

variable {q : Request}

/-! ## Pages -/

theorem perPage_pos (q : Request) (p : Page) : 0 < q.perPage p := by
  unfold perPage
  split
  · omega
  · split
    · assumption
    · decide

theorem perPage_of_limit {q' : Request} {p : Page} (h : q'.limit = some (q.perPage p)) :
    q'.perPage p = q.perPage p := by
  have hlimit : q'.limitValue = q.perPage p := by rw [limitValue, h, Option.getD_some]
  by_cases hp : 0 < p.perPage
  · rw [perPage, if_pos hp, perPage, if_pos hp]
  · rw [perPage, if_neg hp, hlimit, if_pos (perPage_pos q p)]

/-! ## Finalizing -/

theorem get?_finalModifiers_comment {c : String} (h : q.comment = some c) :
    Keyed.get? q.finalModifiers "$comment" = some (.str c) := by
  have hne : "$maxTimeMS" ≠ "$comment" := by decide
  unfold finalModifiers
  rw [h]
  cases q.maxTime with
  | none => exact Keyed.get?_set_self _ _ _
  | some ms => exact (Keyed.get?_set_ne _ _ hne).trans (Keyed.get?_set_self _ _ _)

theorem get?_finalModifiers_maxTime {ms : Nat} (h : q.maxTime = some ms) :
    Keyed.get? q.finalModifiers "$maxTimeMS" = some (.ofNat ms) := by
  unfold finalModifiers
  rw [h]
  exact Keyed.get?_set_self _ _ _

theorem pageWindow_of_page {p : Page} (h : q.page = some p) : q.pageWindow =
    (some (min (q.perPage p * ((max p.number 1).toNat - 1)) (Nat.pow 2 64 - 1)), some (q.perPage p)) := by
  unfold pageWindow
  rw [h]

/-- **Finalizing leaves nothing to fill in.** -/
theorem finalized_finalize (q : Request) (table : String) (shape : RowShape) : (q.finalize table shape).Finalized where
  table := rfl
  rowShape := rfl
  master := rfl
  fetchCursor := rfl
  limit := by
    show q.pageWindow.2.isSome = true
    cases h : q.page with
    | none =>
      unfold pageWindow
      rw [h]
      rfl
    | some p => rw [pageWindow_of_page h, Option.isSome_some]
  selection := rfl
  comment := fun _ h => get?_finalModifiers_comment h
  maxTime := fun _ h => get?_finalModifiers_maxTime h
  page := fun p h => by
    -- the rows on a page are read off the limit, which is their number by now
    have hwindow := pageWindow_of_page (q := q) h
    have hlimit : (q.finalize table shape).limit = some (q.perPage p) := congrArg Prod.snd hwindow
    have hskip : (q.finalize table shape).skip = _ := congrArg Prod.fst hwindow
    rw [hskip, hlimit, perPage_of_limit hlimit]
    exact ⟨rfl, rfl⟩

namespace Finalized

theorem finalModifiers_eq (h : q.Finalized) : q.finalModifiers = q.modifiers := by
  unfold finalModifiers
  cases hc : q.comment with
  | none =>
    cases hm : q.maxTime with
    | none => rfl
    | some ms => exact Keyed.set_of_get?_some (h.maxTime ms hm)
  | some c =>
    have hkept := Keyed.set_of_get?_some (h.comment c hc)
    cases hm : q.maxTime with
    | none => exact hkept
    | some ms =>
      exact (congrArg (Keyed.set · "$maxTimeMS" (.ofNat ms)) hkept).trans (Keyed.set_of_get?_some (h.maxTime ms hm))

theorem pageWindow_eq (h : q.Finalized) : q.pageWindow = (q.skip, q.limit) := by
  cases hp : q.page with
  | none =>
    obtain ⟨n, hn⟩ := Option.isSome_iff_exists.1 h.limit
    unfold pageWindow limitValue
    rw [hp, hn]
    rfl
  | some p =>
    obtain ⟨hskip, hlimit⟩ := h.page p hp
    rw [pageWindow_of_page hp, hskip, hlimit]

/-- **With nothing to fill in, finalizing changes nothing**, whatever the defaults. -/
theorem finalize_eq (h : q.Finalized) (table : String) (shape : RowShape) : q.finalize table shape = q := by
  have hsome {α : Type} {o : Option α} (ho : o.isSome = true) (d : α) : some (o.getD d) = o := by
    obtain ⟨a, rfl⟩ := Option.isSome_iff_exists.1 ho
    rfl
  rw [finalize, hsome h.table, hsome h.rowShape, hsome h.master, hsome h.fetchCursor, h.finalModifiers_eq,
    ← h.selection, h.pageWindow_eq]

end Finalized

/-- **Finalizing twice is finalizing once**, also if the defaults are others the second time: there is nothing left to
fill in.  The conditions, the data, the sort keys and all that has been chosen stay. -/
theorem finalize_idempotent (q : Request) (table table' : String) (shape shape' : RowShape) :
    (q.finalize table shape).finalize table' shape' = q.finalize table shape ∧
    (q.finalize table shape).Finalized ∧
    (q.finalize table shape).filter = q.filter ∧ (q.finalize table shape).data = q.data ∧
    (q.finalize table shape).sort = q.sort ∧
    (∀ t, q.table = some t → (q.finalize table shape).table = some t) ∧
    (∀ s, q.rowShape = some s → (q.finalize table shape).rowShape = some s) ∧
    (∀ b, q.master = some b → (q.finalize table shape).master = some b) ∧
    ∀ b, q.fetchCursor = some b → (q.finalize table shape).fetchCursor = some b := by
  have hfinal := finalized_finalize q table shape
  have hchosen {α : Type} {o : Option α} (d a : α) (ho : o = some a) : some (o.getD d) = some a := by
    rw [ho, Option.getD_some]
  exact ⟨hfinal.finalize_eq table' shape', hfinal, rfl, rfl, rfl, fun t => hchosen table t, fun s => hchosen shape s,
    fun b => hchosen false b, fun b => hchosen false b⟩

end DocQuery.Request
