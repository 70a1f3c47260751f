import DocQuery.Driver.Memory
import DocQuery.Endpoint.Pool
import DocQuery.Proofs.Keyed
import DocQuery.Proofs.Run

/-!
# Links of a pool

A link that was opened is kept until the pool is closed, so that from one close to the next a driver opens at most one
for each slot (`Pool.accepted_eq`).  An attempt that fails is forgotten: it leaves all links as they were, and the next
request for the slot makes another (`Pool.links_memoized`).
-/
namespace DocQuery

variable {σ τ : Type}

structure Contact where
  address : String
  params : Fields
  answer : Except Fault Link

def Contact.accepted? (c : Contact) : Option Link := c.answer.toOption

/-- A driver that keeps a record of all attempts to open links. -/
def Driver.recording (d : Driver σ) : Driver (σ × List Contact) :=
  { connect := fun address params => .of fun s =>
      let (answer, t) := (d.connect address params).on s.1
      (answer, t, s.2 ++ [⟨address, params, answer⟩])
    query := fun l ns q preference => (d.query l ns q preference).within Prod.fst fun s t => (s, t.2)
    write := fun l ns b concern => (d.write l ns b concern).within Prod.fst fun s t => (s, t.2)
    command := fun l database c preference => (d.command l database c preference).within Prod.fst fun s t => (s, t.2)
    deliver := fun shape rows => (d.deliver shape rows).within Prod.fst fun s t => (s, t.2) }

namespace Pool

variable {d : Driver σ} {slot : Slot} {l : Link}

/-! ## One request for a link -/

theorem link_of_some {p : Pool τ} (h : Keyed.get? p.links slot = some l) : (link slot).on p = (.ok l, p) := by
  simp [link, Run.on_bind, h]

theorem link_of_none {p : Pool τ} (h : Keyed.get? p.links slot = none) : (link slot).on p =
    match (p.driver.connect (p.settings.target slot).1 (p.settings.target slot).2).on p.state with
    | (.ok l, s) => (.ok l, { p with state := s, links := Keyed.set p.links slot l })
    | (.error f, s) => (.error f, { p with state := s }) := by
  simp only [link, Run.on_bind, Run.on_get, h, drive, Run.on_within]
  rcases (p.driver.connect (p.settings.target slot).1 (p.settings.target slot).2).on p.state with ⟨f | l, s⟩
  · rfl
  · rfl

theorem driver_link (slot : Slot) (p : Pool τ) : ((link slot).on p).2.driver = p.driver := by
  cases hget : Keyed.get? p.links slot with
  | some l => rw [link_of_some hget]
  | none =>
    rw [link_of_none hget]
    rcases (p.driver.connect (p.settings.target slot).1 (p.settings.target slot).2).on p.state with ⟨f | l, s⟩
    · rfl
    · rfl

theorem held_of_link {p q : Pool τ} (h : (link slot).on p = (.ok l, q)) : Keyed.get? q.links slot = some l := by
  cases hget : Keyed.get? p.links slot with
  | some l' =>
    rw [link_of_some hget] at h
    cases h
    exact hget
  | none =>
    rw [link_of_none hget] at h
    rcases hconnect : (p.driver.connect (p.settings.target slot).1 (p.settings.target slot).2).on p.state with
      ⟨f | l', s⟩
    · rw [hconnect] at h
      cases h
    · rw [hconnect] at h
      cases h
      exact Keyed.get?_set_self _ _ _

theorem unlinked_of_fault {p q : Pool τ} {f : Fault} (h : (link slot).on p = (.error f, q)) :
    Keyed.get? p.links slot = none := by
  cases hget : Keyed.get? p.links slot with
  | none => rfl
  | some l =>
    rw [link_of_some hget] at h
    cases h

def unrecorded (d : Driver σ) (p : Pool (σ × List Contact)) : Pool σ := ⟨p.settings, d, p.state.1, p.links⟩

theorem link_unrecorded {p : Pool (σ × List Contact)} (hp : p.driver = d.recording) :
    (link slot).on (p.unrecorded d) = (((link slot).on p).1, ((link slot).on p).2.unrecorded d) := by
  cases hget : Keyed.get? p.links slot with
  | some l => rw [link_of_some hget, link_of_some (p := p.unrecorded d) hget]
  | none =>
    rw [link_of_none hget, link_of_none (p := p.unrecorded d) hget, hp]
    simp only [unrecorded, Driver.recording, Run.on_of]
    rcases (d.connect (p.settings.target slot).1 (p.settings.target slot).2).on p.state.1 with ⟨f | l, s⟩
    · rfl
    · rfl

/-- One attempt was made to open the link to a slot: the driver was contacted once, and the link is kept if there is
one. -/
structure Tried (d : Driver σ) (slot : Slot) (p : Pool (σ × List Contact))
    (out : Except Fault Link × Pool (σ × List Contact)) : Prop where
  contact : out.2.state.2 = p.state.2 ++ [⟨(p.settings.target slot).1, (p.settings.target slot).2, out.1⟩]
  connect : (d.connect (p.settings.target slot).1 (p.settings.target slot).2).on p.state.1 = (out.1, out.2.state.1)
  links : out.2.links = out.1.toOption.elim p.links (Keyed.set p.links slot)

theorem tried {p : Pool (σ × List Contact)} (hp : p.driver = d.recording) (h : Keyed.get? p.links slot = none) :
    Tried d slot p ((link slot).on p) := by
  rw [link_of_none h, hp]
  simp only [Driver.recording, Run.on_of]
  rcases hconnect : (d.connect (p.settings.target slot).1 (p.settings.target slot).2).on p.state.1 with ⟨f | l, s⟩
  · exact ⟨rfl, hconnect, rfl⟩
  · exact ⟨rfl, hconnect, rfl⟩

theorem Tried.get?_self {p : Pool (σ × List Contact)} {out : Except Fault Link × Pool (σ × List Contact)}
    (ht : Tried d slot p out) (h : Keyed.get? p.links slot = none) :
    Keyed.get? out.2.links slot = out.1.toOption := by
  rw [ht.links]
  cases out.1 with
  | error f => exact h
  | ok l => exact Keyed.get?_set_self _ _ _

theorem get?_link_of_ne {p : Pool τ} {slot' : Slot} (h : slot' ≠ slot) :
    Keyed.get? ((link slot').on p).2.links slot = Keyed.get? p.links slot := by
  cases hget : Keyed.get? p.links slot' with
  | some l => rw [link_of_some hget]
  | none =>
    rw [link_of_none hget]
    rcases (p.driver.connect (p.settings.target slot').1 (p.settings.target slot').2).on p.state with ⟨f | l, s⟩
    · rfl
    · exact Keyed.get?_set_ne _ _ h

/-! ## Runs -/

inductive Event (σ : Type) where
  | link (slot : Slot)
  | close
  | meanwhile (change : σ → σ)

namespace Event

def on (p : Pool (σ × List Contact)) : Event σ → Pool (σ × List Contact)
  | link slot => ((Pool.link slot).on p).2
  | close => p.close
  | meanwhile change => { p with state := (change p.state.1, p.state.2) }

def contacts (slot : Slot) (p : Pool (σ × List Contact)) : Event σ → List Contact
  | link slot' => if slot' = slot then ((Pool.link slot').on p).2.state.2.drop p.state.2.length else []
  | _ => []

end Event

def after : List (Event σ) → Pool (σ × List Contact) → Pool (σ × List Contact)
  | [], p => p
  | e :: es, p => after es (e.on p)

def accepted (slot : Slot) : List (Event σ) → Pool (σ × List Contact) → List Link
  | [], _ => []
  | e :: es, p => (e.contacts slot p).filterMap Contact.accepted? ++ accepted slot es (e.on p)

/-- A pool without links, with an empty record of a driver, after some events. -/
def reached (d : Driver σ) (settings : Settings) (s : σ) (past : List (Event σ)) : Pool (σ × List Contact) :=
  after past { settings := settings, driver := d.recording, state := (s, []) }

section

variable {p : Pool (σ × List Contact)} {e : Event σ} {es : List (Event σ)}

theorem driver_on : (e.on p).driver = p.driver := by
  cases e with
  | link slot => exact driver_link slot p
  | close => rfl
  | meanwhile change => rfl

theorem driver_after : ∀ (es : List (Event σ)) (p : Pool (σ × List Contact)), (after es p).driver = p.driver
  | [], _ => rfl
  | e :: es, p => by rw [after, driver_after es, driver_on]

/-- **A link is held until the pool is closed.** -/
theorem held_on (h : Keyed.get? p.links slot = some l) (he : e ≠ .close) : Keyed.get? (e.on p).links slot = some l := by
  cases e with
  | link slot' =>
    rw [Event.on]
    by_cases hslot : slot' = slot
    · rw [hslot, link_of_some h]
      exact h
    · rw [get?_link_of_ne hslot, h]
  | close => exact absurd rfl he
  | meanwhile change => exact h

theorem held_after : ∀ {es : List (Event σ)} {p : Pool (σ × List Contact)}, Keyed.get? p.links slot = some l →
    (∀ e ∈ es, e ≠ .close) → Keyed.get? (after es p).links slot = some l
  | [], _, h, _ => h
  | e :: es, p, h, hes => by
    obtain ⟨he, hrest⟩ := List.forall_mem_cons.1 hes
    rw [after]
    exact held_after (held_on h he) hrest

theorem unlinked_on (h : Keyed.get? p.links slot = none) (he : e ≠ .link slot) :
    Keyed.get? (e.on p).links slot = none := by
  cases e with
  | link slot' =>
    have hslot : slot' ≠ slot := fun hslot => he (congrArg Event.link hslot)
    rw [Event.on, get?_link_of_ne hslot, h]
  | close => rfl
  | meanwhile change => exact h

theorem unlinked_after : ∀ {es : List (Event σ)} {p : Pool (σ × List Contact)}, Keyed.get? p.links slot = none →
    (∀ e ∈ es, e ≠ .link slot) → Keyed.get? (after es p).links slot = none
  | [], _, h, _ => h
  | e :: es, p, h, hes => by
    obtain ⟨he, hrest⟩ := List.forall_mem_cons.1 hes
    rw [after]
    exact unlinked_after (unlinked_on h he) hrest

theorem contacts_of_held (h : Keyed.get? p.links slot = some l) : e.contacts slot p = [] := by
  cases e with
  | link slot' =>
    rw [Event.contacts]
    split
    · rename_i hslot
      rw [hslot, link_of_some h]
      simp
    · rfl
  | close => rfl
  | meanwhile change => rfl

theorem accepted_contacts (hp : p.driver = d.recording) (h : Keyed.get? p.links slot = none) :
    (e.contacts slot p).filterMap Contact.accepted? = (Keyed.get? (e.on p).links slot).toList := by
  by_cases he : e = .link slot
  · subst he
    have ht := tried hp h
    rw [Event.contacts, if_pos rfl, ht.contact, List.drop_left, Event.on, ht.get?_self h]
    simp only [List.filterMap_cons, List.filterMap_nil, Contact.accepted?]
    cases ((link slot).on p).1 with
    | error f => rfl
    | ok l => rfl
  · rw [unlinked_on h he]
    cases e with
    | link slot' =>
      rw [Event.contacts, if_neg fun hslot => he (congrArg Event.link hslot)]
      rfl
    | close => rfl
    | meanwhile change => rfl

/-- **From one close to the next the links that are opened to a slot are the one that is held in the end**, unless one
was held already. -/
theorem accepted_eq : ∀ {es : List (Event σ)} {p : Pool (σ × List Contact)}, p.driver = d.recording →
    (∀ e ∈ es, e ≠ .close) → accepted slot es p =
      if (Keyed.get? p.links slot).isSome then [] else (Keyed.get? (after es p).links slot).toList
  | [], p, _, _ => by
    rw [accepted, after]
    cases Keyed.get? p.links slot with
    | none => rfl
    | some l => rfl
  | e :: es, p, hp, hes => by
    obtain ⟨he, hrest⟩ := List.forall_mem_cons.1 hes
    rw [accepted, accepted_eq (driver_on.trans hp) hrest, after]
    cases hget : Keyed.get? p.links slot with
    | some l =>
      rw [contacts_of_held hget, held_on hget he]
      rfl
    | none =>
      -- a link that this event opens is held to the end, so that the rest opens none
      rw [accepted_contacts hp hget]
      cases hnext : Keyed.get? (e.on p).links slot with
      | none => rfl
      | some l =>
        rw [held_after hnext hrest]
        rfl

end

/-- **Links are opened once and kept, and failures do not spread.**  Whatever happens to a pool and to its driver: until
the next close the driver opens at most one link to a slot; a link that was got is got again, and nothing is changed by
that; an attempt that fails gives the fault of the driver, changes no link and leaves the slot without one, so that the
next request makes another attempt. -/
theorem links_memoized (d : Driver σ) (settings : Settings) (s : σ) (past : List (Event σ)) (slot : Slot) :
    (∀ period, (∀ e ∈ period, e ≠ .close) → (accepted slot period (reached d settings s past)).length ≤ 1) ∧
    (∀ l q, (link slot).on (reached d settings s past) = (.ok l, q) →
      ∀ period, (∀ e ∈ period, e ≠ .close) → (link slot).on (after period q) = (.ok l, after period q)) ∧
    ∀ f q, (link slot).on (reached d settings s past) = (.error f, q) →
      Tried d slot (reached d settings s past) (.error f, q) ∧ q.links = (reached d settings s past).links ∧
      q.isConnected slot = false ∧
      ∀ later, (∀ e ∈ later, e ≠ .link slot) → Tried d slot (after later q) ((link slot).on (after later q)) := by
  generalize hreached : reached d settings s past = p
  have hp : p.driver = d.recording := by rw [← hreached, reached, driver_after]
  refine ⟨fun period hperiod => ?_, fun l q hlink period hperiod => ?_, fun f q hlink => ?_⟩
  · rw [accepted_eq hp hperiod]
    split
    · exact Nat.zero_le 1
    · exact Option.length_toList_le
  · exact link_of_some (held_after (held_of_link hlink) hperiod)
  · have hnone := unlinked_of_fault hlink
    have htried := tried hp hnone
    have hself := htried.get?_self hnone
    have hq := (driver_link slot p).trans hp
    rw [hlink] at htried hself hq
    refine ⟨htried, htried.links, ?_, fun later hlater => ?_⟩
    · rw [isConnected, Keyed.has, hself]
      rfl
    · exact tried ((driver_after later q).trans hq) (unlinked_after hself hlater)

def badAndGood : Settings := { hostname := "bad,good", deployment := .distributed }

def denied : DriverFault := ⟨.authentication, "denied"⟩

def refusal : List (Event Memory) := [.meanwhile fun m => m.refuse "mongodb://bad:27017" denied]

def pardon : List (Event Memory) := [.link (.host 1), .meanwhile fun m => m.allow "mongodb://bad:27017"]

theorem links_memoized_refused : ∃ q,
    (link (.host 0)).on (reached Memory.driver badAndGood { supply := ⟨.stamped 0, 0⟩ } refusal) =
      (.error (.driver denied), q) ∧
    q.isConnected (.host 0) = false ∧
    Tried Memory.driver (.host 0) (after pardon q) ((link (.host 0)).on (after pardon q)) ∧
    ((link (.host 0)).on (after pardon q)).1 = .ok ⟨1⟩ := by
  have hlink : (link (.host 0)).on (reached Memory.driver badAndGood { supply := ⟨.stamped 0, 0⟩ } refusal) =
      (.error (.driver denied), ((link (.host 0)).on (reached Memory.driver badAndGood
        { supply := ⟨.stamped 0, 0⟩ } refusal)).2) := by rfl
  obtain ⟨-, -, hfails⟩ := links_memoized Memory.driver badAndGood { supply := ⟨.stamped 0, 0⟩ } refusal (.host 0)
  obtain ⟨-, -, hunlinked, hnext⟩ := hfails _ _ hlink
  refine ⟨_, hlink, hunlinked, hnext pardon ?_, ?_⟩
  · intro e he
    simp only [pardon, List.mem_cons, List.not_mem_nil, or_false] at he
    rcases he with rfl | rfl <;> simp
  · rfl

end Pool

end DocQuery
