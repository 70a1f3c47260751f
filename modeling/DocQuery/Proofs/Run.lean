import DocQuery.Run

/-!
# Taking runs apart

A sequence of steps succeeds just if every step does, each on the state the step before it left (`Run.bind_eq_ok`).
-/
namespace DocQuery

theorem bind_eq_ok {ε α β : Type} {x : Except ε α} {k : α → Except ε β} {b : β} :
    x >>= k = .ok b ↔ ∃ a, x = .ok a ∧ k a = .ok b := by
  cases x with
  | error e => simp [Bind.bind, Except.bind]
  | ok a => simp [Bind.bind, Except.bind]

theorem map_eq_ok {ε α β : Type} {x : Except ε α} {f : α → β} {b : β} :
    x.map f = .ok b ↔ ∃ a, x = .ok a ∧ f a = b := by
  cases x with
  | error e => simp [Except.map]
  | ok a => simp [Except.map]

namespace Run

variable {σ τ α β : Type}

@[simp] theorem on_pure (a : α) (s : σ) : (pure a : Run σ α).on s = (.ok a, s) := rfl

@[simp] theorem on_of (f : σ → Except Fault α × σ) (s : σ) : (of f).on s = f s := rfl

@[simp] theorem on_get (s : σ) : (get : Run σ σ).on s = (.ok s, s) := rfl

@[simp] theorem on_set (t s : σ) : (set t : Run σ PUnit).on s = (.ok ⟨⟩, t) := rfl

@[simp] theorem on_modify (f : σ → σ) (s : σ) : (modify f : Run σ PUnit).on s = (.ok ⟨⟩, f s) := rfl

@[simp] theorem on_throw (e : Fault) (s : σ) : (throw e : Run σ α).on s = (.error e, s) := rfl

@[simp] theorem on_lift (x : Except Fault α) (s : σ) : (liftM x : Run σ α).on s = (x, s) := by
  cases x <;> rfl

@[simp] theorem on_within (read : σ → τ) (write : τ → σ → σ) (m : Run τ α) (s : σ) :
    (m.within read write).on s = ((m.on (read s)).1, write (m.on (read s)).2 s) := rfl

theorem on_bind (m : Run σ α) (k : α → Run σ β) (s : σ) :
    (m >>= k).on s = match m.on s with
      | (.ok a, t) => (k a).on t
      | (.error e, t) => (.error e, t) := by
  have h : (m >>= k).on s = ExceptT.bindCont k (m.on s).1 (m.on s).2 := rfl
  rw [h]
  rcases m.on s with ⟨e | a, t⟩
  · rfl
  · rfl

theorem on_bind_ok {m : Run σ α} {k : α → Run σ β} {s t : σ} {a : α} (h : m.on s = (.ok a, t)) :
    (m >>= k).on s = (k a).on t := by
  rw [on_bind, h]

theorem on_bind_error {m : Run σ α} {k : α → Run σ β} {s t : σ} {e : Fault} (h : m.on s = (.error e, t)) :
    (m >>= k).on s = (.error e, t) := by
  rw [on_bind, h]

theorem fst_on_map (m : Run σ α) (f : α → β) (s : σ) :
    ((m >>= fun a => pure (f a)).on s).1 = (m.on s).1.map f := by
  rw [on_bind]
  rcases m.on s with ⟨e | a, t⟩
  · rfl
  · rfl

/-- **A sequence of steps succeeds just if every step does.** -/
theorem bind_eq_ok {m : Run σ α} {k : α → Run σ β} {s u : σ} {b : β} :
    (m >>= k).on s = (.ok b, u) ↔ ∃ a t, m.on s = (.ok a, t) ∧ (k a).on t = (.ok b, u) := by
  rw [on_bind]
  rcases m.on s with ⟨e | a, t⟩
  · simp
  · constructor
    · intro h
      exact ⟨a, t, rfl, h⟩
    · rintro ⟨a', t', h, hk⟩
      cases h
      exact hk

end Run

end DocQuery
