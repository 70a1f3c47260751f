import DocQuery.Proofs.Frame
import DocQuery.Proofs.WalkFilter

/-!
# The request behind a walk

A walk puts a request of its own in place of the pending one for every batch, and the one it began with back when it
ends: at the last batch, at a visitor that has seen enough, and at a row without the column.  It does not when a batch
cannot be read; then the finalized request of that batch stays (`chunks_restore`).
-/
namespace DocQuery.Walk

/-- The requests that a walk makes for its batches, if it gets to some bounds. -/
inductive Asks (q : Request) (size : Nat) (column : String) (bounds : Value → Prop) : Request → Prop where
  | first : Asks q size column bounds (firstBatch q size column)
  | next (last : Value) (h : bounds last) : Asks q size column bounds (nextBatch q size column last)

/-- A walk broke off at a request: its select failed in a session that goes by the same as the first one, and left the
request finalized. -/
structure BrokeOff {σ β : Type} (s : Session σ) (e : Fault) (w : Walk σ β) (asked : Request) : Prop where
  request : w.query.request = s.finalize asked
  failed : ∃ t : Session σ, t.terms = s.terms ∧
    (Session.select (s.finalize asked)).on t = (.error e, w.query.session)

section

variable {σ β : Type} {s : Session σ} {q asked : Request} {size : Nat} {column : String} {w : Walk σ β} {e : Fault}

theorem queried_select_eq (hw : w.query.session.terms = s.terms) : (queried Query.select).on w =
    (((Session.select (s.finalize w.query.request)).on w.query.session).1,
      { w with query := ⟨((Session.select (s.finalize w.query.request)).on w.query.session).2,
        s.finalize w.query.request⟩ }) := by
  have hfinal := Session.finalize_of_terms hw w.query.request
  unfold queried Query.select
  rw [Run.on_within, Query.finalized_on, hfinal]

theorem terms_queried_select (w : Walk σ β) :
    ((queried Query.select).on w).2.query.session.terms = w.query.session.terms := by
  rw [queried_select_eq rfl]
  exact Session.keeps_select _ _

theorem brokeOff_of_select (hw : w.query.session.terms = s.terms) {w' : Walk σ β}
    (h : (queried Query.select).on w = (.error e, w')) : BrokeOff s e w' w.query.request := by
  rw [queried_select_eq hw, Prod.mk.injEq] at h
  obtain ⟨he, rfl⟩ := h
  exact ⟨rfl, w.query.session, hw, Prod.ext he rfl⟩

/-- How a walk leaves its request: put back if it came to an end, that of a batch if it broke off. -/
structure Leaves (s : Session σ) (q : Request) (size : Nat) (column : String) (r : Except Fault (Option Bool))
    (w : Walk σ β) : Prop where
  ended : ∀ finished, r = .ok (some finished) → w.query.request = q
  failed : ∀ e, r = .error e → ∃ asked, Asks q size column (·.isNull = false) asked ∧ BrokeOff s e w asked

theorem leaves_of_ok {finished : Bool} (h : w.query.request = q) : Leaves s q size column (.ok (some finished)) w :=
  ⟨fun _ _ => h, nofun⟩

/-- **Every way out of a walk but a batch that cannot be read puts the request back.** -/
theorem batches_leave (visitor : Visitor β) : ∀ (n : Nat) (rows : List Value) (w : Walk σ β),
    w.query.session.terms = s.terms → Leaves s q size column ((batches visitor q size column n rows).on w).1
      ((batches visitor q size column n rows).on w).2
  | 0, _, _, _ => ⟨nofun, nofun⟩
  | n + 1, rows, w, hw => by
    by_cases hr : rows = []
    · rw [hr, batches_nil]
      exact leaves_of_ok rfl
    · cases hm : (visitor rows w.memory).2 with
      | false =>
        rw [batches_stop n hr hm]
        exact leaves_of_ok rfl
      | true =>
        cases hnull : (lastOf column rows).isNull with
        | true =>
          rw [batches_end n hr hm (Value.eq_null_of_isNull hnull)]
          exact leaves_of_ok rfl
        | false =>
          rw [batches_next n hr hm rfl hnull]
          have hterms := terms_queried_select ({ w with memory := (visitor rows w.memory).1 }.withRequest
            (nextBatch q size column (lastOf column rows)))
          rcases hon : (queried Query.select).on ({ w with memory := (visitor rows w.memory).1 }.withRequest
            (nextBatch q size column (lastOf column rows))) with ⟨e | rows', w'⟩
          · rw [Run.on_bind_error hon]
            refine ⟨nofun, fun e' he => ?_⟩
            cases he
            exact ⟨_, .next _ hnull, brokeOff_of_select (w := { w with memory := (visitor rows w.memory).1 }.withRequest
              (nextBatch q size column (lastOf column rows))) hw hon⟩
          · rw [hon] at hterms
            rw [Run.on_bind_ok hon]
            exact batches_leave visitor n rows' w' (hterms.trans hw)

/-- **A walk that comes to an end leaves the request it began with.**  One that breaks off leaves the finalized request
of the batch that could not be read, so that the request is put back just if it was that one already. -/
theorem chunks_restore (visitor : Visitor β) (hsize : 0 < size) (memory : β) (column : Option String) (bound : Nat) :
    (∀ finished, ((chunks visitor size column bound).on ⟨⟨s, q⟩, memory⟩).1 = .ok (some finished) →
      ((chunks visitor size column bound).on ⟨⟨s, q⟩, memory⟩).2.query.request = q) ∧
    ∀ e, ((chunks visitor size column bound).on ⟨⟨s, q⟩, memory⟩).1 = .error e →
      ∃ asked, Asks q size (column.getD (s.primaryKeyFor q)) (·.isNull = false) asked ∧
        BrokeOff s e ((chunks visitor size column bound).on ⟨⟨s, q⟩, memory⟩).2 asked ∧
        (((chunks visitor size column bound).on ⟨⟨s, q⟩, memory⟩).2.query.request = q ↔ s.finalize asked = q) := by
  have hleaves : Leaves s q size (column.getD (s.primaryKeyFor q))
      ((chunks visitor size column bound).on ⟨⟨s, q⟩, memory⟩).1
      ((chunks visitor size column bound).on ⟨⟨s, q⟩, memory⟩).2 := by
    rw [chunks_on (Nat.pos_iff_ne_zero.1 hsize)]
    have hterms := terms_queried_select
      (⟨⟨s, firstBatch q size (column.getD (s.primaryKeyFor q))⟩, memory⟩ : Walk σ β)
    rcases hon : (queried Query.select).on
      (⟨⟨s, firstBatch q size (column.getD (s.primaryKeyFor q))⟩, memory⟩ : Walk σ β) with ⟨e | rows, w⟩
    · rw [Run.on_bind_error hon]
      refine ⟨nofun, fun e' he => ?_⟩
      cases he
      exact ⟨_, .first, brokeOff_of_select (w := ⟨⟨s, _⟩, memory⟩) rfl hon⟩
    · rw [hon] at hterms
      rw [Run.on_bind_ok hon]
      exact batches_leave visitor bound rows w hterms
  refine ⟨hleaves.ended, fun e he => ?_⟩
  obtain ⟨asked, hasks, hbroke⟩ := hleaves.failed e he
  exact ⟨asked, hasks, hbroke, by rw [hbroke.request]⟩

end

theorem chunks_restore_unnamed : 0 < 2 ∧ ((chunks (keeping fun _ => true) 2 (some "name") 9).on
      ⟨⟨stored freshSession ⟨"app", "t"⟩ [.obj [("_id", .int 1)]], { table := some "t" }⟩, []⟩).2.query.request =
        { table := some "t" } := by
  have hend : ((chunks (keeping fun _ => true) 2 (some "name") 9).on
      ⟨⟨stored freshSession ⟨"app", "t"⟩ [.obj [("_id", .int 1)]], { table := some "t" }⟩, []⟩).1.toOption =
        some (some true) := by decide +kernel
  have hrestore := chunks_restore (s := stored freshSession ⟨"app", "t"⟩ [.obj [("_id", .int 1)]])
    (q := { table := some "t" }) (keeping fun _ => true) Nat.two_pos [] (some "name") 9
  rcases hon : ((chunks (keeping fun _ => true) 2 (some "name") 9).on
      ⟨⟨stored freshSession ⟨"app", "t"⟩ [.obj [("_id", .int 1)]], { table := some "t" }⟩, []⟩).1 with e | finished
  · rw [hon] at hend
    cases hend
  · rw [hon] at hend
    cases hend
    exact ⟨Nat.two_pos, hrestore.1 true hon⟩

def refusedSession : Session Memory :=
  { freshSession with
    pool := { freshSession.pool with
      state := { freshSession.pool.state with refused := [("mongodb://127.0.0.1:27017", ⟨.connection, "refused"⟩)] } } }

/-- **A walk whose batch cannot be read keeps the request of that batch**, its limit and its finalized table. -/
theorem refused_walk_keeps_batch :
    ((chunks (keeping fun _ => true) 2 (some "name") 9).on
      ⟨⟨refusedSession, { table := some "t" }⟩, []⟩).2.query.request ≠ { table := some "t" } :=
  fun h => absurd (congrArg (fun q : Request => q.limit) h) (by decide)

end DocQuery.Walk
