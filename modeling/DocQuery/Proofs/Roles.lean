import DocQuery.Endpoint
import Mathlib.Data.Set.Image
import Mathlib.Order.Interval.Set.Defs

/-!
# The endpoints of a role

A role is served by a single slot or by a range of hosts that a number is drawn for (`Settings.choices`).  The hosts are
counted when settings are accepted and once more for every choice.  Both counts agree (`Accepted.hostCount_eq`), so that
no range is empty and no index lies outside; where reads are kept apart, writes go to masters and reads, unless a host
is set for them, to the others (`roles_respected`).
-/
namespace DocQuery.Settings

variable {s : Settings} {role : Role} {slot : Slot}

def selectable (s : Settings) (role : Role) : Set Slot := Set.range (s.select role)

theorem mem_hostSlots {first last : Nat} : slot ∈ hostSlots first last ↔ slot ∈ Slot.host '' Set.Ico first last := by
  unfold hostSlots
  rw [List.mem_map]
  constructor
  · rintro ⟨i, hi, rfl⟩
    obtain ⟨hfirst, hlast⟩ := List.mem_range'_1.1 hi
    exact ⟨i, ⟨hfirst, by omega⟩, rfl⟩
  · rintro ⟨i, ⟨hfirst, hlast⟩, rfl⟩
    exact ⟨i, List.mem_range'_1.2 ⟨hfirst, by omega⟩, rfl⟩

theorem hostSlots_ne_nil {first last : Nat} (h : first < last) : hostSlots first last ≠ [] :=
  List.ne_nil_of_mem (mem_hostSlots.2 ⟨first, ⟨Nat.le_refl _, h⟩, rfl⟩)

theorem getElem?_select (h : s.choices role ≠ []) (draw : Nat) :
    (s.choices role)[draw % (s.choices role).length]? = some (s.select role draw) := by
  have hlt := Nat.mod_lt draw (List.length_pos_iff.2 h)
  simp only [select, List.getD_eq_getElem?_getD, List.getElem?_eq_getElem hlt, Option.getD_some]

/-- **Every choice is drawn by some number**, and nothing else is, as long as there is a choice. -/
theorem mem_selectable (h : s.choices role ≠ []) : slot ∈ s.selectable role ↔ slot ∈ s.choices role := by
  constructor
  · rintro ⟨draw, rfl⟩
    exact List.mem_of_getElem? (getElem?_select h draw)
  · intro hmem
    obtain ⟨draw, hdraw, rfl⟩ := List.getElem_of_mem hmem
    have hpick := getElem?_select h draw
    rw [Nat.mod_eq_of_lt hdraw, List.getElem?_eq_getElem hdraw] at hpick
    exact ⟨draw, (Option.some.inj hpick).symm⟩

theorem selectable_hostSlots {first last : Nat} (hc : s.choices role = hostSlots first last) (h : first < last) :
    s.selectable role = Slot.host '' Set.Ico first last := by
  ext slot
  rw [mem_selectable (by rw [hc]; exact hostSlots_ne_nil h), hc, mem_hostSlots]

theorem selectable_singleton (hc : s.choices role = [slot]) : s.selectable role = {slot} := by
  ext slot'
  rw [mem_selectable (by rw [hc]; exact List.cons_ne_nil _ _), hc, List.mem_singleton, Set.mem_singleton_iff]

/-- What accepted settings of hosts side by side have. -/
structure Accepted (s : Settings) : Prop where
  distributed : s.deployment = .distributed
  hosts : 0 < s.endpointCount
  masters : 0 < s.masterCount
  slave : ∀ i, s.slave = some i → i < s.endpointCount
  others : s.slave = none → s.separateReads = true → s.masterCount < s.endpointCount

/-- **Settings of hosts side by side are accepted just if** there is a host and a master, the host set for reads is
among them, and without one there are more hosts than masters wherever reads are kept apart. -/
theorem validate_eq_ok (hd : s.deployment = .distributed) : s.validate = .ok () ↔ s.Accepted := by
  have hside : s.isDistributed = true := by rw [isDistributed, hd]; rfl
  unfold validate
  rw [hside]
  constructor
  · intro h
    split at h
    · cases h
    · simp only [Bool.not_true, Bool.false_eq_true, if_false] at h
      split at h
      · cases h
      · refine ⟨hd, by omega, by omega, fun i hi => ?_, fun hnone hsep => ?_⟩
        · rw [hi] at h
          simp only at h
          split at h
          · cases h
          · omega
        · rw [hnone, hsep] at h
          simp only [true_and] at h
          split at h
          · cases h
          · omega
  · intro h
    rw [if_neg (Nat.pos_iff_ne_zero.1 h.hosts), if_neg (by simp), if_neg (Nat.pos_iff_ne_zero.1 h.masters)]
    cases hslave : s.slave with
    | some i =>
      simp only
      rw [if_neg (Nat.not_le.2 (h.slave i hslave))]
    | none =>
      simp only
      rw [if_neg fun hfew => Nat.not_le.2 (h.others hslave hfew.1) hfew.2]

namespace Accepted

theorem hostCount_eq (h : s.Accepted) : s.hostCount = s.endpointCount := Nat.max_eq_left h.hosts

theorem masters_eq (h : s.Accepted) : s.masters = min s.masterCount s.endpointCount := by
  have hhosts := h.hosts
  have hmasters := h.masters
  unfold Settings.masters
  rw [h.hostCount_eq]
  omega

theorem topology_eq (h : s.Accepted) : s.topology = .distributed s.separateReads := by
  rw [topology, h.distributed]

theorem choices_together (h : s.Accepted) (hsep : s.separateReads = false) (role : Role) :
    s.choices role = hostSlots 0 s.endpointCount := by
  rw [choices.eq_def, h.topology_eq, hsep, ← h.hostCount_eq]

theorem choices_write (h : s.Accepted) (hsep : s.separateReads = true) : s.choices .write =
    if s.isReplicaSet then [.replicaSet] else hostSlots 0 (min s.masterCount s.endpointCount) := by
  rw [choices.eq_def, h.topology_eq, hsep, ← h.masters_eq]

theorem choices_slave (h : s.Accepted) (hsep : s.separateReads = true) {i : Nat} (hi : s.slave = some i) :
    s.choices .read = [.host i] := by
  have hin := h.slave i hi
  rw [choices.eq_def, h.topology_eq, hsep, hi, h.hostCount_eq]
  simp only [List.cons.injEq, Slot.host.injEq, and_true]
  omega

theorem choices_read (h : s.Accepted) (hsep : s.separateReads = true) (hi : s.slave = none) :
    s.choices .read = hostSlots s.masterCount s.endpointCount := by
  have hothers := h.others hi hsep
  have hmasters : s.masters = s.masterCount := by rw [h.masters_eq, Nat.min_eq_left (Nat.le_of_lt hothers)]
  rw [choices.eq_def, h.topology_eq, hsep, hi, hmasters, h.hostCount_eq]
  simp only [if_pos hothers]

theorem choices_ne_nil (h : s.Accepted) (role : Role) : s.choices role ≠ [] := by
  cases hsep : s.separateReads with
  | false =>
    rw [h.choices_together hsep]
    exact hostSlots_ne_nil h.hosts
  | true =>
    cases role with
    | write =>
      rw [h.choices_write hsep]
      split
      · exact List.cons_ne_nil _ _
      · exact hostSlots_ne_nil (lt_min h.masters h.hosts)
    | read =>
      cases hi : s.slave with
      | some i =>
        rw [h.choices_slave hsep hi]
        exact List.cons_ne_nil _ _
      | none =>
        rw [h.choices_read hsep hi]
        exact hostSlots_ne_nil (h.others hi hsep)

/-- **No draw leads outside the hosts.** -/
theorem index_lt (h : s.Accepted) {i : Nat} (hi : .host i ∈ s.selectable role) : i < s.endpointCount := by
  rw [mem_selectable (h.choices_ne_nil role)] at hi
  have hrange : ∀ {first last : Nat}, last ≤ s.endpointCount → .host i ∈ hostSlots first last →
      i < s.endpointCount := by
    intro first last hlast hmem
    obtain ⟨j, hj, heq⟩ := mem_hostSlots.1 hmem
    cases heq
    exact Nat.lt_of_lt_of_le hj.2 hlast
  cases hsep : s.separateReads with
  | false =>
    rw [h.choices_together hsep] at hi
    exact hrange (Nat.le_refl _) hi
  | true =>
    cases role with
    | write =>
      rw [h.choices_write hsep] at hi
      split at hi
      · cases List.mem_singleton.1 hi
      · exact hrange (Nat.min_le_right _ _) hi
    | read =>
      cases hslave : s.slave with
      | some j =>
        rw [h.choices_slave hsep hslave] at hi
        cases List.mem_singleton.1 hi
        exact h.slave _ hslave
      | none =>
        rw [h.choices_read hsep hslave] at hi
        exact hrange (Nat.le_refl _) hi

/-- **Writes go to masters** where reads are kept apart. -/
theorem isMaster_of_write (h : s.Accepted) (hsep : s.separateReads = true) (hw : slot ∈ s.selectable .write) :
    s.isMaster slot = true := by
  rw [mem_selectable (h.choices_ne_nil _), h.choices_write hsep] at hw
  split at hw
  · rw [List.mem_singleton.1 hw]
    rfl
  · obtain ⟨i, hi, rfl⟩ := mem_hostSlots.1 hw
    exact decide_eq_true (Nat.lt_of_lt_of_le hi.2 (Nat.min_le_left _ _))

end Accepted

/-- **Accepted hosts side by side serve each role by exactly the slots that are meant for it.**  Without a split these
are all hosts.  With one, writes go to the replica set if there is one and to the masters otherwise, reads to the host
set for them and otherwise to all hosts that are no masters.  No range is empty and no index outside the hosts. -/
theorem roles_respected (hd : s.deployment = .distributed) (hv : s.validate = .ok ()) :
    (s.separateReads = false → ∀ role, s.selectable role = Slot.host '' Set.Ico 0 s.endpointCount) ∧
    (s.separateReads = true →
      s.selectable .write =
        (if s.isReplicaSet then {.replicaSet} else Slot.host '' Set.Ico 0 (min s.masterCount s.endpointCount)) ∧
      (∀ i, s.slave = some i → s.selectable .read = {.host i}) ∧
      (s.slave = none → s.selectable .read = Slot.host '' Set.Ico s.masterCount s.endpointCount ∧
        (s.selectable .read).Nonempty ∧ ∀ slot ∈ s.selectable .read, s.isMaster slot = false) ∧
      ∀ slot ∈ s.selectable .write, s.isMaster slot = true) ∧
    (∀ role, s.choices role ≠ []) ∧
    ∀ role i, .host i ∈ s.selectable role → i < s.endpointCount := by
  have h := (validate_eq_ok hd).1 hv
  refine ⟨fun hsep role => selectable_hostSlots (h.choices_together hsep role) h.hosts, fun hsep => ⟨?_, ?_, ?_, ?_⟩,
    h.choices_ne_nil, fun role i => h.index_lt⟩
  · have hwrite := h.choices_write hsep
    split
    · rename_i hset
      rw [if_pos hset] at hwrite
      exact selectable_singleton hwrite
    · rename_i hset
      rw [if_neg hset] at hwrite
      exact selectable_hostSlots hwrite (lt_min h.masters h.hosts)
  · exact fun i hi => selectable_singleton (h.choices_slave hsep hi)
  · intro hi
    have hread := selectable_hostSlots (h.choices_read hsep hi) (h.others hi hsep)
    rw [hread]
    refine ⟨rfl, ⟨_, Set.mem_image_of_mem _ ⟨Nat.le_refl _, h.others hi hsep⟩⟩, ?_⟩
    rintro slot ⟨i, hindex, rfl⟩
    exact decide_eq_false (Nat.not_lt.2 hindex.1)
  · exact fun slot => h.isMaster_of_write hsep

def threeHosts : Settings :=
  { hostname := "a, b,c", deployment := .distributed, separateReads := true, masterCount := 1 }

theorem roles_respected_three : threeHosts.deployment = .distributed ∧ threeHosts.validate = .ok () ∧
    threeHosts.selectable .write = {.host 0} ∧ threeHosts.selectable .read = {.host 1, .host 2} := by
  have hv : threeHosts.validate = .ok () := by cbv
  have hcount : threeHosts.endpointCount = 3 := by cbv
  obtain ⟨hwrite, -, hread, -⟩ := (roles_respected rfl hv).2.1 rfl
  refine ⟨rfl, hv, hwrite.trans ?_, (hread rfl).1.trans ?_⟩
  · rw [hcount]
    ext slot
    simp [threeHosts, eq_comm]
  · rw [hcount]
    ext slot
    simp only [threeHosts, Set.mem_image, Set.mem_Ico, Set.mem_insert_iff, Set.mem_singleton_iff]
    constructor
    · rintro ⟨i, ⟨hfirst, hlast⟩, rfl⟩
      have hi : i = 1 ∨ i = 2 := by omega
      simpa using hi
    · rintro (rfl | rfl)
      · exact ⟨1, by decide, rfl⟩
      · exact ⟨2, by decide, rfl⟩

end DocQuery.Settings
