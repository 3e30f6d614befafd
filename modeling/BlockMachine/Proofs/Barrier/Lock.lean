import BlockMachine.Proofs.Barrier.Moves

/-!
# The lock of a barrier

What every run keeps, whoever calls the barrier and whatever for.

* `BarrierRoom.Locked` — who holds the lock; that the shown fields are those under it whenever it is free; that
  whoever is parked then has something to wait for.
* `BarrierRoom.Locked.turn` — a turn keeps it.
-/

set_option autoImplicit false

namespace BlockMachine

/-- Whether a caller in this phase has the lock between two of its steps. -/
def Phase.holdsLock : Phase → Bool
  | .opening | .exposing => true
  | .idle | .arriving | .spinning _ _ | .peeking _ _ | .rechecking _ | .parked _ | .poisoning => false

theorem Phase.holdsLock_of_waiting {phase : Phase} {generation : UInt64}
    (h : phase.generation? = some generation) : phase.holdsLock = false := by
  cases phase with
  | opening => cases h
  | exposing => cases h
  | _ => rfl

@[simp] theorem Caller.notified_holdsLock (caller : Caller) :
    caller.notified.phase.holdsLock = caller.phase.holdsLock := by
  obtain ⟨phase, results⟩ := caller
  cases phase <;> rfl

namespace BarrierRoom

/-- What the lock of a barrier protects. -/
structure Locked (room : BarrierRoom) : Prop where
  holder_eq : ∀ (index : Nat) (caller : Caller), room.callers[index]? = some caller →
    caller.phase.holdsLock = true → room.holder = some index
  held : ∀ index, room.holder = some index →
    ∃ caller, room.callers[index]? = some caller ∧ caller.phase.holdsLock = true
  opening : ∀ (index : Nat) (caller : Caller), room.callers[index]? = some caller →
    caller.phase = .opening → room.barrier.shownPoisoned = room.barrier.poisoned
  exposing : ∀ (index : Nat) (caller : Caller), room.callers[index]? = some caller →
    caller.phase = .exposing →
      room.barrier.shownGeneration = room.barrier.generation ∧ room.barrier.poisoned = true
  generation_eq : room.holder = none → room.barrier.shownGeneration = room.barrier.generation
  poisoned_eq : room.holder = none → room.barrier.shownPoisoned = room.barrier.poisoned
  /-- Until a new generation is shown nobody arrives in it. -/
  arrived_eq : room.barrier.shownGeneration ≠ room.barrier.generation → room.barrier.arrived = 0
  /-- No wake-up is lost. -/
  parked : room.holder = none → ∀ (index : Nat) (caller : Caller), room.callers[index]? = some caller →
    ∀ generation, caller.phase = .parked generation →
      room.barrier.generation = generation ∧ room.barrier.poisoned = false

variable {room : BarrierRoom} {index : Nat} {caller changed : Caller}

namespace Locked

/-- A caller goes on without the lock. -/
theorem withCaller (h : room.Locked) (hcaller : room.callers[index]? = some caller)
    (hbefore : caller.phase.holdsLock = false) (hafter : changed.phase.holdsLock = false)
    (hparked : room.holder = none → ∀ generation, changed.phase = .parked generation →
      room.barrier.generation = generation ∧ room.barrier.poisoned = false) :
    (room.withCaller index changed).Locked where
  holder_eq := by
    refine forall_withCaller (fun hlocks => ?_) fun other caller _ => h.holder_eq other caller
    exact absurd (hlocks.symm.trans hafter) nofun
  held other hholder := by
    obtain ⟨owner, howner, hlocks⟩ := h.held other hholder
    have hne : index ≠ other := by
      rintro rfl
      obtain rfl := Option.some.inj (hcaller.symm.trans howner)
      exact absurd (hlocks.symm.trans hbefore) nofun
    exact ⟨owner, (List.getElem?_set_ne hne).trans howner, hlocks⟩
  opening := by
    refine forall_withCaller (fun hphase => ?_) fun other caller _ => h.opening other caller
    rw [hphase] at hafter
    cases hafter
  exposing := by
    refine forall_withCaller (fun hphase => ?_) fun other caller _ => h.exposing other caller
    rw [hphase] at hafter
    cases hafter
  generation_eq := h.generation_eq
  poisoned_eq := h.poisoned_eq
  arrived_eq := h.arrived_eq
  parked hfree := forall_withCaller (hparked hfree) fun other caller _ => h.parked hfree other caller

/-- A caller that goes on without the lock and does not park. -/
theorem withCaller_awake (h : room.Locked) (hcaller : room.callers[index]? = some caller)
    (hbefore : caller.phase.holdsLock = false) (hafter : changed.phase.holdsLock = false)
    (hawake : ∀ generation, changed.phase ≠ .parked generation) : (room.withCaller index changed).Locked :=
  h.withCaller hcaller hbefore hafter fun _ generation hphase => absurd hphase (hawake generation)

theorem joined (h : room.Locked) (hfree : room.holder = none) : room.joined.Locked where
  holder_eq := h.holder_eq
  held := h.held
  opening := h.opening
  exposing := h.exposing
  generation_eq := h.generation_eq
  poisoned_eq := h.poisoned_eq
  arrived_eq hne := absurd (h.generation_eq hfree) hne
  parked := h.parked

/-- While the lock is free nobody is in the middle of a change. -/
theorem not_holdsLock (h : room.Locked) (hfree : room.holder = none)
    (hcaller : room.callers[index]? = some caller) : caller.phase.holdsLock = false := by
  cases hlocks : caller.phase.holdsLock with
  | false => rfl
  | true => exact absurd ((h.holder_eq index caller hcaller hlocks).symm.trans hfree) nofun

/-- A caller takes the free lock for a change.  In its phase it leaves one of the shown fields as it was. -/
theorem taken (h : room.Locked) (hfree : room.holder = none) (hcaller : room.callers[index]? = some caller)
    {barrier : Barrier} {phase : Phase} (hphase : phase.holdsLock = true)
    (hopening : phase = .opening → barrier.shownPoisoned = barrier.poisoned)
    (hexposing : phase = .exposing →
      barrier.shownGeneration = barrier.generation ∧ barrier.poisoned = true)
    (harrived : barrier.shownGeneration ≠ barrier.generation → barrier.arrived = 0) :
    ({ room with barrier := barrier, holder := some index }.withCaller index (caller.moveTo phase)).Locked := by
  have hlt : index < room.callers.length := (List.getElem?_eq_some_iff.mp hcaller).1
  have hothers : ∀ (other : Nat) (sibling : Caller), room.callers[other]? = some sibling →
      sibling.phase.holdsLock = false := fun other sibling => h.not_holdsLock hfree
  refine ⟨?_, ?_, ?_, ?_, nofun, nofun, harrived, nofun⟩
  · refine forall_withCaller (fun _ => rfl) fun other sibling _ hsibling hlocks => ?_
    exact absurd (hlocks.symm.trans (hothers other sibling hsibling)) nofun
  · intro other hholder
    obtain rfl := Option.some.inj hholder
    exact ⟨_, List.getElem?_set_self hlt, hphase⟩
  · refine forall_withCaller hopening fun other sibling _ hsibling hsame => ?_
    have hlocks := hothers other sibling hsibling
    rw [hsame] at hlocks
    cases hlocks
  · refine forall_withCaller hexposing fun other sibling _ hsibling hsame => ?_
    have hlocks := hothers other sibling hsibling
    rw [hsame] at hlocks
    cases hlocks

/-- A caller shows its change, wakes everyone and gives the lock back. -/
theorem released (h : room.Locked) (hcaller : room.callers[index]? = some caller)
    (hlocks : caller.phase.holdsLock = true) {barrier : Barrier}
    (hgeneration : barrier.shownGeneration = barrier.generation)
    (hpoisoned : barrier.shownPoisoned = barrier.poisoned) (hidle : changed.phase = .idle) :
    ({ room with barrier := barrier, holder := none }.notifyAll.withCaller index changed).Locked := by
  have hmine : room.holder = some index := h.holder_eq index caller hcaller hlocks
  have hnobody : ∀ (other : Nat) (sibling : Caller),
      ({ room with barrier := barrier, holder := none }.notifyAll.withCaller index changed).callers[other]? =
        some sibling → sibling.phase.holdsLock = false := by
    refine forall_withCaller (by rw [hidle]; rfl) fun other sibling hother hsibling => ?_
    obtain ⟨before, hbefore, rfl⟩ := exists_of_notifyAll hsibling
    rw [Caller.notified_holdsLock]
    cases hbefore' : before.phase.holdsLock with
    | false => rfl
    | true =>
      have hholder := h.holder_eq other before hbefore hbefore'
      exact absurd (Option.some.inj (hholder.symm.trans hmine)) hother
  refine ⟨?_, nofun, ?_, ?_, fun _ => hgeneration, fun _ => hpoisoned, absurd hgeneration, fun _ => ?_⟩
  · intro other sibling hsibling hlocks
    exact absurd (hlocks.symm.trans (hnobody other sibling hsibling)) nofun
  · exact fun other sibling _ _ => hpoisoned
  · intro other sibling hsibling hphase
    have hlocks := hnobody other sibling hsibling
    rw [hphase] at hlocks
    cases hlocks
  · refine forall_withCaller (fun generation hphase => ?_) fun other sibling _ hsibling generation hphase => ?_
    · exact absurd (hphase.symm.trans hidle) nofun
    · obtain ⟨before, _, rfl⟩ := exists_of_notifyAll hsibling
      exact absurd hphase (Caller.notified_phase_ne before generation)

/-- **A turn keeps what the lock protects.** -/
theorem turn (h : room.Locked) (turn : Turn) : (room.turn turn).Locked := by
  cases hcaller : room.callers[turn.caller]? with
  | none => exact (turn_of_no_caller hcaller).symm ▸ h
  | some caller =>
    obtain ⟨room', hroom'⟩ : ∃ room', room' = room.turn turn := ⟨_, rfl⟩
    obtain ⟨deeds, hdeeds⟩ : ∃ deeds, deeds = room.deeds turn := ⟨_, rfl⟩
    have hmove := move_turn turn hcaller
    rw [← hroom', ← hdeeds] at hmove
    rw [← hroom']
    cases hmove with
    | stays => exact h
    | begins hidle hphase =>
      rcases hphase with rfl | ⟨rfl, _⟩
      all_goals exact h.withCaller_awake hcaller (congrArg Phase.holdsLock hidle) rfl nofun
    | turnedAway hphase =>
      exact h.withCaller_awake hcaller (congrArg Phase.holdsLock hphase) rfl nofun
    | opens hphase hfree _ hlast =>
      exact h.taken hfree hcaller rfl (fun _ => h.poisoned_eq hfree) nofun fun _ => rfl
    | joins hphase hfree _ hlast =>
      exact (h.joined hfree).withCaller_awake hcaller (congrArg Phase.holdsLock hphase) rfl nofun
    | shows hphase =>
      exact h.released hcaller (congrArg Phase.holdsLock hphase) rfl
        (h.opening _ caller hcaller hphase) rfl
    | sees hphase => exact h.withCaller_awake hcaller (congrArg Phase.holdsLock hphase) rfl nofun
    | finds hphase => exact h.withCaller_awake hcaller (congrArg Phase.holdsLock hphase) rfl nofun
    | fails hphase => exact h.withCaller_awake hcaller (congrArg Phase.holdsLock hphase) rfl nofun
    | parks hphase hfree hsame hp =>
      refine h.withCaller hcaller (congrArg Phase.holdsLock hphase) rfl fun _ generation hparked => ?_
      obtain rfl := Phase.parked.inj hparked
      exact ⟨hsame, hp⟩
    | looks hgeneration hphase hawake =>
      refine h.withCaller_awake hcaller (Phase.holdsLock_of_waiting hgeneration)
        (Phase.holdsLock_of_waiting hphase) ?_
      rintro generation rfl
      obtain rfl := Option.some.inj hphase
      exact hawake rfl
    | closes hphase hfree =>
      exact h.taken hfree hcaller rfl nofun (fun _ => ⟨h.generation_eq hfree, rfl⟩)
        fun hne => absurd (h.generation_eq hfree) hne
    | exposes hphase =>
      obtain ⟨hgeneration, hpoisoned⟩ := h.exposing _ caller hcaller hphase
      exact h.released hcaller (congrArg Phase.holdsLock hphase) hgeneration hpoisoned.symm rfl

theorem run (turns : List Turn) : ∀ {room : BarrierRoom}, room.Locked → (room.run turns).Locked := by
  induction turns with
  | nil => exact id
  | cons turn turns ih => exact fun h => ih (h.turn turn)

/-- Callers that have not begun, at a new barrier. -/
theorem gather (threads callers : Nat) : (Drill.gather { threads := threads } callers).Locked := by
  have hidle : ∀ (index : Nat) (caller : Caller),
      (Drill.gather { threads := threads } callers).callers[index]? = some caller → caller.phase = .idle := by
    intro index caller hcaller
    rw [List.eq_of_mem_replicate (List.mem_of_getElem? hcaller)]
  refine ⟨?_, nofun, fun _ _ _ _ => rfl, ?_, fun _ => rfl, fun _ => rfl, fun _ => rfl, ?_⟩
  · intro index caller hcaller hlocks
    rw [hidle index caller hcaller] at hlocks
    cases hlocks
  · intro index caller hcaller hphase
    exact absurd ((hidle index caller hcaller).symm.trans hphase) nofun
  · intro _ index caller hcaller generation hphase
    exact absurd ((hidle index caller hcaller).symm.trans hphase) nofun

end Locked

end BarrierRoom

end BlockMachine
