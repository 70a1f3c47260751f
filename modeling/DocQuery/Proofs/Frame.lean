import DocQuery.Proofs.Run
import DocQuery.Session.Read
import DocQuery.Session.Write

/-!
# What operations leave alone

An operation keeps what is shown of its state if that is the same afterwards, whether it succeeds or fails
(`Run.Keeps`).  What a session goes by, its settings, naming, time and listeners, is kept by everything that reads and
writes are made of; its cache is kept by all that does not ask it and does not invalidate (`Session.terms`,
`Session.termsAndCache`).  The count of trips to the store is not kept, but one read raises it by one at most
(`Session.raises_select`).
-/
namespace DocQuery

namespace Run

variable {σ τ υ α β : Type} {f : σ → τ}

/-- An operation leaves what is shown of its state as it is. -/
def Keeps (f : σ → τ) (m : Run σ α) : Prop := ∀ s, f (m.on s).2 = f s

theorem keeps_pure (a : α) : Keeps f (pure a : Run σ α) := fun _ => rfl

theorem keeps_get : Keeps f (get : Run σ σ) := fun _ => rfl

theorem keeps_lift (x : Except Fault α) : Keeps f (liftM x : Run σ α) := fun s => by rw [on_lift]

theorem keeps_modify {g : σ → σ} (h : ∀ s, f (g s) = f s) : Keeps f (modify g : Run σ PUnit) := h

theorem Keeps.bind {m : Run σ α} {k : α → Run σ β} (hm : Keeps f m) (hk : ∀ a, Keeps f (k a)) : Keeps f (m >>= k) :=
  fun s => by
    have hfirst := hm s
    rw [on_bind]
    rcases hon : m.on s with ⟨e | a, t⟩
    · rw [hon] at hfirst
      exact hfirst
    · rw [hon] at hfirst
      exact (hk a t).trans hfirst

theorem Keeps.map {m : Run σ α} (hm : Keeps f m) (g : τ → υ) : Keeps (fun s => g (f s)) m := fun s => congrArg g (hm s)

/-- An operation raises a count by so much at most. -/
def Raises (f : σ → Nat) (n : Nat) (m : Run σ α) : Prop := ∀ s, f (m.on s).2 ≤ f s + n

theorem Raises.of_keeps {f : σ → Nat} {m : Run σ α} (hm : Keeps f m) (n : Nat) : Raises f n m := fun s => by
  rw [hm s]
  exact Nat.le_add_right _ _

theorem Raises.behind {f : σ → Nat} {n : Nat} {m : Run σ α} {k : α → Run σ β} (hm : Keeps f m)
    (hk : ∀ a, Raises f n (k a)) : Raises f n (m >>= k) := fun s => by
  have hfirst := hm s
  rw [on_bind]
  rcases hon : m.on s with ⟨e | a, t⟩
  · rw [hon] at hfirst
    exact hfirst ▸ Nat.le_add_right _ _
  · rw [hon] at hfirst
    rw [← hfirst]
    exact hk a t

theorem Raises.before {f : σ → Nat} {n : Nat} {m : Run σ α} {k : α → Run σ β} (hm : Raises f n m)
    (hk : ∀ a, Keeps f (k a)) : Raises f n (m >>= k) := fun s => by
  have hfirst := hm s
  rw [on_bind]
  rcases hon : m.on s with ⟨e | a, t⟩
  · rw [hon] at hfirst
    exact hfirst
  · rw [hon] at hfirst
    simp only
    rw [hk a t]
    exact hfirst

end Run

open Run (Keeps)

namespace Pool

variable {σ α : Type}

theorem keeps_drive (m : Run σ α) : Keeps Pool.settings (drive m) := fun _ => rfl

theorem keeps_link (slot : Slot) : Keeps Pool.settings (link slot : Run (Pool σ) Link) := by
  refine Run.keeps_get.bind fun p => ?_
  split
  · exact Run.keeps_pure _
  · exact (keeps_drive _).bind fun l => Keeps.bind (Run.keeps_modify fun _ => rfl) fun _ => Run.keeps_pure _

theorem keeps_endpoint (role : Role) (n : Nat) : Keeps Pool.settings (endpoint role n : Run (Pool σ) (Slot × Link)) :=
  Run.keeps_get.bind fun _ => (keeps_link _).bind fun _ => Run.keeps_pure _

end Pool

namespace Session

variable {σ α β τ : Type} {s t : Session σ}

def terms (s : Session σ) : Settings × Naming × Nat × List Listener := (s.settings, s.naming, s.now, s.listeners)

def termsAndCache (s : Session σ) : (Settings × Naming × Nat × List Listener) × Cache := (s.terms, s.cache)

theorem settings_of_terms (h : t.terms = s.terms) : t.settings = s.settings := congrArg (·.1) h

theorem now_of_terms (h : t.terms = s.terms) : t.now = s.now := congrArg (·.2.2.1) h

theorem hasListener_of_terms (h : t.terms = s.terms) (hook : Hook) : t.hasListener hook = s.hasListener hook :=
  congrArg (fun terms => terms.2.2.2.any (·.hook == hook)) h

theorem finalize_of_terms (h : t.terms = s.terms) (q : Request) : t.finalize q = s.finalize q := by
  have hnaming : t.naming = s.naming := congrArg (·.2.1) h
  unfold finalize tableFor
  rw [settings_of_terms h, hnaming]

theorem terms_of_keeps {m : Run (Session σ) α} (h : Keeps termsAndCache m) : Keeps terms m := h.map Prod.fst

/-! ## Parts of reads and writes -/

/-- Something of a session that has nothing to do with its links, draws, identifiers, notices and rows. -/
def Aside (f : Session σ → τ) : Prop := ∀ (s : Session σ) (pool : Pool σ) draws supply notices rowCount,
  pool.settings = s.pool.settings →
    f { s with pool := pool, draws := draws, supply := supply, notices := notices, rowCount := rowCount } = f s

theorem aside_termsAndCache : Aside (termsAndCache : Session σ → _) := fun s _ _ _ _ _ h =>
  congrArg (fun settings => ((settings, s.naming, s.now, s.listeners), s.cache)) h

theorem aside_trips : Aside (trips : Session σ → Nat) := fun _ _ _ _ _ _ _ => rfl

section

variable {f : Session σ → τ} (hf : Aside f)
include hf

theorem keeps_pooled {m : Run (Pool σ) α} (hm : Keeps Pool.settings m) : Keeps f (pooled m) := fun s =>
  hf s (m.on s.pool).2 s.draws s.supply s.notices s.rowCount (hm s.pool)

theorem keeps_drive (m : Run σ α) : Keeps f (drive m) := keeps_pooled hf (Pool.keeps_drive m)

theorem keeps_endpoint (role : Role) : Keeps f (endpoint role : Run (Session σ) (Slot × Link)) := by
  have hdraw : Keeps f (draw : Run (Session σ) Nat) := fun s =>
    hf s s.pool { s.draws with next := s.draws.next + 1 } s.supply s.notices s.rowCount rfl
  exact hdraw.bind fun _ => keeps_pooled hf (Pool.keeps_endpoint role _)

theorem keeps_trigger (hook : Hook) (q : Request) (outcome : Option Value) :
    Keeps f (trigger hook q outcome : Run (Session σ) (Option Value)) := fun s =>
  hf s s.pool s.draws s.supply (s.notices ++ (Listener.call hook q outcome s.listeners).2) s.rowCount rfl

theorem keeps_supplied (g : KeyRule → IdSupply → α × IdSupply) : Keeps f (supplied g : Run (Session σ) α) := fun s =>
  hf s s.pool s.draws (g s.keyRule s.supply).2 s.notices s.rowCount rfl

theorem keeps_deliver (q : Request) (rows : List Value) :
    Keeps f (deliver q rows : Run (Session σ) (List Value)) := by
  refine Run.keeps_get.bind fun _ => (keeps_drive hf _).bind fun _ => Keeps.bind (Run.keeps_modify fun s => ?_) fun _ =>
    Run.keeps_pure _
  exact hf s s.pool s.draws s.supply s.notices _ rfl

end

theorem keeps_record (statement : String) : Keeps termsAndCache (record statement : Run (Session σ) Unit) :=
  fun _ => rfl

theorem keeps_fetch (q : Request) (p : FindPayload) :
    Keeps termsAndCache (fetch q p : Run (Session σ) (List Value)) := by
  have haside : Aside (termsAndCache : Session σ → _) := aside_termsAndCache
  refine Keeps.bind (Keeps.bind (keeps_endpoint haside _) fun _ => ?_) fun _ => keeps_deliver haside q _
  refine Run.keeps_get.bind fun _ => (Run.keeps_lift _).bind fun _ => (keeps_drive haside _).bind fun _ => ?_
  exact (keeps_record _).bind fun _ => Run.keeps_pure _

theorem raises_fetch (q : Request) (p : FindPayload) :
    Run.Raises trips 1 (fetch q p : Run (Session σ) (List Value)) := by
  have haside : Aside (trips : Session σ → Nat) := aside_trips
  have hrecord : ∀ statement, Run.Raises trips 1 (record statement : Run (Session σ) Unit) := fun _ _ => Nat.le_refl _
  have hopen : Run.Raises trips 1 (openRows q p : Run (Session σ) (List Value)) := by
    refine .behind (keeps_endpoint haside _) fun _ => .behind Run.keeps_get fun _ => ?_
    refine .behind (Run.keeps_lift _) fun _ => .behind (keeps_drive haside _) fun _ => ?_
    exact .before (hrecord _) fun _ => Run.keeps_pure _
  exact .before hopen fun _ => keeps_deliver haside q _

/-! ## Reads -/

theorem keeps_cached (q : Request) (kind : String) (payload : Value) {fetch : Run (Session σ) Value}
    (hf : Keeps terms fetch) : Keeps terms (cached q kind payload fetch) := by
  unfold cached
  split
  · exact hf
  · refine fun s => ?_
    rw [Run.on_bind_ok (Run.on_get s), Run.on_bind_ok (Run.on_set _ s)]
    split
    · rfl
    · refine Keeps.bind hf (fun v => ?_) _
      split
      · exact Keeps.bind (Run.keeps_modify fun _ => rfl) fun _ => Run.keeps_pure _
      · exact Run.keeps_pure _

theorem keeps_select (q : Request) : Keeps terms (select q : Run (Session σ) (List Value)) := by
  refine (terms_of_keeps (keeps_trigger aside_termsAndCache _ _ _)).bind fun found => ?_
  split
  · exact Run.keeps_pure _
  · refine (Run.keeps_get.bind fun _ => Run.keeps_lift _).bind fun p => Keeps.bind ?_ fun _ => Run.keeps_pure _
    exact keeps_cached q "select" p.toValue
      ((terms_of_keeps (keeps_fetch q p)).bind fun _ => Run.keeps_pure _)

theorem raises_cached (q : Request) (kind : String) (payload : Value) {fetch : Run (Session σ) Value} {n : Nat}
    (hf : Run.Raises trips n fetch) : Run.Raises trips n (cached q kind payload fetch) := by
  unfold cached
  split
  · exact hf
  · refine fun s => ?_
    rw [Run.on_bind_ok (Run.on_get s), Run.on_bind_ok (Run.on_set _ s)]
    split
    · exact Nat.le_add_right _ _
    · refine Run.Raises.before hf (fun v => ?_) _
      split
      · exact Keeps.bind (Run.keeps_modify fun _ => rfl) fun _ => Run.keeps_pure _
      · exact Run.keeps_pure _

/-- **A select is one trip to the store at most.** -/
theorem raises_select (q : Request) : Run.Raises trips 1 (select q : Run (Session σ) (List Value)) := by
  refine .behind (keeps_trigger aside_trips _ _ _) fun found => ?_
  split
  · exact .of_keeps (Run.keeps_pure _) 1
  · refine .behind (Run.keeps_get.bind fun _ => Run.keeps_lift _) fun p => .before ?_ fun _ => Run.keeps_pure _
    exact raises_cached q "select" p.toValue (.before (raises_fetch q p) fun _ => Run.keeps_pure _)

end Session

end DocQuery
