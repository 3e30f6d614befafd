import BlockMachine.Barrier.Ledger

/-!
# What a turn at a barrier does

* `Phase.generation?` — the generation for which a caller waits that has arrived.
* `BarrierRoom.Move` — all that a turn can do to a room, with what its caller is then seen to do.
* `BarrierRoom.move_turn` — a turn does one of these things.
-/

set_option autoImplicit false

namespace BlockMachine

/-- The generation for which a caller waits that has arrived and is not the last to do so. -/
def Phase.generation? : Phase → Option UInt64
  | .spinning generation _ | .peeking generation _ | .rechecking generation | .parked generation =>
    some generation
  | .idle | .arriving | .opening | .poisoning | .exposing => none

namespace Caller

@[simp] theorem moveTo_phase (caller : Caller) (phase : Phase) : (caller.moveTo phase).phase = phase := rfl

@[simp] theorem moveTo_results (caller : Caller) (phase : Phase) :
    (caller.moveTo phase).results = caller.results := rfl

@[simp] theorem returned_phase (caller : Caller) (result : WaitResult) :
    (caller.returned result).phase = .idle := rfl

@[simp] theorem returned_results (caller : Caller) (result : WaitResult) :
    (caller.returned result).results = result :: caller.results := rfl

@[simp] theorem notified_results (caller : Caller) : caller.notified.results = caller.results := by
  obtain ⟨phase, results⟩ := caller
  cases phase <;> rfl

/-- A wake-up changes nothing about what a caller waits for. -/
@[simp] theorem notified_generation? (caller : Caller) :
    caller.notified.phase.generation? = caller.phase.generation? := by
  obtain ⟨phase, results⟩ := caller
  cases phase <;> rfl

/-- Nobody stays parked who is woken. -/
theorem notified_phase_ne (caller : Caller) (generation : UInt64) :
    caller.notified.phase ≠ .parked generation := by
  obtain ⟨phase, results⟩ := caller
  cases phase <;> exact nofun

/-- A wake-up changes nothing for those who are not parked. -/
theorem notified_eq_self {caller : Caller} (h : caller.phase.generation? = none) :
    caller.notified = caller := by
  obtain ⟨phase, results⟩ := caller
  cases phase with
  | parked generation => cases h
  | _ => rfl

end Caller

namespace BarrierRoom

variable {room room' : BarrierRoom} {index : Nat} {caller : Caller}

/-! ## Callers of a room -/

/-- What holds of all callers after one of them has changed. -/
theorem forall_withCaller {P : Nat → Caller → Prop} {changed : Caller} (hself : P index changed)
    (hothers : ∀ other caller, other ≠ index → room.callers[other]? = some caller → P other caller) :
    ∀ other caller, (room.withCaller index changed).callers[other]? = some caller → P other caller := by
  intro other caller hcaller
  by_cases he : index = other
  · subst he
    have hlt : index < room.callers.length := by
      have h := (List.getElem?_eq_some_iff.mp hcaller).1
      rwa [withCaller, List.length_set] at h
    rw [withCaller, List.getElem?_set_self hlt] at hcaller
    obtain rfl := Option.some.inj hcaller
    exact hself
  · rw [withCaller, List.getElem?_set_ne he] at hcaller
    exact hothers other caller (Ne.symm he) hcaller

@[simp] theorem length_withCaller : (room.withCaller index caller).callers.length = room.callers.length :=
  List.length_set

theorem withCaller_self (h : room.callers[index]? = some caller) : room.withCaller index caller = room := by
  obtain ⟨hlt, rfl⟩ := List.getElem?_eq_some_iff.mp h
  rw [withCaller, List.set_getElem_self]

/-- A caller of a room in which everyone has been woken. -/
theorem exists_of_notifyAll {other : Nat} (h : room.notifyAll.callers[other]? = some caller) :
    ∃ before, room.callers[other]? = some before ∧ caller = before.notified := by
  rw [notifyAll, List.getElem?_map] at h
  obtain ⟨before, hbefore, rfl⟩ := Option.map_eq_some_iff.mp h
  exact ⟨before, hbefore, rfl⟩

/-- A wake-up of everyone does not touch who is not parked. -/
theorem getElem?_notifyAll (h : room.callers[index]? = some caller) (hnone : caller.phase.generation? = none) :
    room.notifyAll.callers[index]? = some caller := by
  rw [notifyAll, List.getElem?_map, h, Option.map_some, Caller.notified_eq_self hnone]

/-! ## Turns -/

/-- The room of a caller that opens the barrier, before it shows so. -/
def opening (room : BarrierRoom) (index : Nat) : BarrierRoom :=
  { room with
    barrier := { room.barrier with arrived := 0, generation := room.barrier.generation + 1 }
    holder := some index }

/-- The room of a caller that arrives and waits. -/
def joined (room : BarrierRoom) : BarrierRoom :=
  { room with barrier := { room.barrier with arrived := room.barrier.arrived + 1 } }

/-- The room of a caller that shows the generation. -/
def shown (room : BarrierRoom) : BarrierRoom :=
  { room with
    barrier := { room.barrier with shownGeneration := room.barrier.generation }, holder := none }.notifyAll

/-- The room of a caller that poisons the barrier, before it shows so. -/
def closing (room : BarrierRoom) (index : Nat) : BarrierRoom :=
  { room with barrier := { room.barrier with poisoned := true }, holder := some index }

/-- The room of a caller that shows the poison. -/
def exposed (room : BarrierRoom) : BarrierRoom :=
  { room with barrier := { room.barrier with shownPoisoned := true }, holder := none }.notifyAll

/-- What the turn of a caller does: the room after it, and what the caller is then seen to do. -/
inductive Move (room : BarrierRoom) (turn : Turn) (caller : Caller) :
    BarrierRoom → List CallerDeed → Prop
  | stays : Move room turn caller room []
  /-- An idle caller begins a wait or a poisoning. -/
  | begins {phase : Phase} (h : caller.phase = .idle)
    (hphase : phase = .arriving ∨ phase = .poisoning ∧ turn = .poisons turn.caller) :
    Move room turn caller (room.withCaller turn.caller (caller.moveTo phase)) []
  /-- The caller arrives at a poisoned barrier. -/
  | turnedAway (h : caller.phase = .arriving) (hfree : room.holder = none)
    (hp : room.barrier.poisoned = true) :
    Move room turn caller (room.withCaller turn.caller (caller.returned .poisoned))
      [.arrives, .returns .poisoned]
  /-- The caller is the last one of its generation to arrive. -/
  | opens (h : caller.phase = .arriving) (hfree : room.holder = none)
    (hp : room.barrier.poisoned = false) (hlast : room.barrier.arrived + 1 = room.barrier.threads) :
    Move room turn caller ((room.opening turn.caller).withCaller turn.caller (caller.moveTo .opening)) [.arrives]
  /-- The caller arrives and waits for others. -/
  | joins (h : caller.phase = .arriving) (hfree : room.holder = none)
    (hp : room.barrier.poisoned = false) (hlast : room.barrier.arrived + 1 ≠ room.barrier.threads) :
    Move room turn caller
      (room.joined.withCaller turn.caller (caller.moveTo (.spinning room.barrier.generation 0))) [.arrives]
  | shows (h : caller.phase = .opening) :
    Move room turn caller (room.shown.withCaller turn.caller (caller.returned .opened)) [.returns .opened]
  /-- The caller sees without the lock that its generation is over. -/
  | sees {generation : UInt64} {round : Nat} (h : caller.phase = .spinning generation round)
    (hshown : room.barrier.shownGeneration ≠ generation) :
    Move room turn caller (room.withCaller turn.caller (caller.returned .opened)) [.returns .opened]
  /-- The caller finds in the lock that its generation is over. -/
  | finds {generation : UInt64} (h : caller.phase = .rechecking generation) (hfree : room.holder = none)
    (hover : room.barrier.generation ≠ generation) :
    Move room turn caller (room.withCaller turn.caller (caller.returned .opened)) [.returns .opened]
  /-- The caller finds that its generation will never be over. -/
  | fails {generation : UInt64} (h : caller.phase = .rechecking generation) (hfree : room.holder = none)
    (hsame : room.barrier.generation = generation) (hp : room.barrier.poisoned = true) :
    Move room turn caller (room.withCaller turn.caller (caller.returned .poisoned)) [.returns .poisoned]
  | parks {generation : UInt64} (h : caller.phase = .rechecking generation) (hfree : room.holder = none)
    (hsame : room.barrier.generation = generation) (hp : room.barrier.poisoned = false) :
    Move room turn caller (room.withCaller turn.caller (caller.moveTo (.parked generation))) []
  /-- The caller goes on to wait. -/
  | looks {generation : UInt64} {phase : Phase} (h : caller.phase.generation? = some generation)
    (hphase : phase.generation? = some generation) (hawake : phase ≠ .parked generation) :
    Move room turn caller (room.withCaller turn.caller (caller.moveTo phase)) []
  | closes (h : caller.phase = .poisoning) (hfree : room.holder = none) :
    Move room turn caller ((room.closing turn.caller).withCaller turn.caller (caller.moveTo .exposing)) [.poisons]
  | exposes (h : caller.phase = .exposing) :
    Move room turn caller (room.exposed.withCaller turn.caller (caller.moveTo .idle)) []

/-- What a caller is seen to do whose turn leaves it in another state. -/
theorem deeds_eq {turn : Turn} {after : Caller} {rest : BarrierRoom}
    (hcaller : room.callers[turn.caller]? = some caller)
    (hturn : room.turn turn = rest.withCaller turn.caller after)
    (hlength : rest.callers.length = room.callers.length) : room.deeds turn = caller.deeds after := by
  have hlt : turn.caller < rest.callers.length := hlength ▸ (List.getElem?_eq_some_iff.mp hcaller).1
  unfold deeds
  rw [hcaller, hturn, withCaller, List.getElem?_set_self hlt]

/-- Nothing is seen of a turn that changes nothing. -/
theorem deeds_of_turn_eq {turn : Turn} (h : room.turn turn = room) : room.deeds turn = [] := by
  unfold deeds
  rw [h]
  cases room.callers[turn.caller]? with
  | none => rfl
  | some caller => simp [Caller.deeds]

theorem isFree_eq_true_iff : room.isFree = true ↔ room.holder = none := Option.isNone_iff_eq_none

/-- A turn that leaves its caller in another state is the move of that state. -/
theorem Move.of_turn_eq (turn : Turn) (rest : BarrierRoom) {after : Caller} {deeds : List CallerDeed}
    (hcaller : room.callers[turn.caller]? = some caller)
    (hturn : room.turn turn = rest.withCaller turn.caller after)
    (hlength : rest.callers.length = room.callers.length) (hdeeds : caller.deeds after = deeds)
    (h : Move room turn caller (rest.withCaller turn.caller after) deeds) :
    Move room turn caller (room.turn turn) (room.deeds turn) := by
  rw [deeds_eq hcaller hturn hlength, hturn, hdeeds]
  exact h

/-- A turn that changes nothing. -/
theorem Move.of_turn_eq_self (turn : Turn) (h : room.turn turn = room) :
    Move room turn caller (room.turn turn) (room.deeds turn) := by
  rw [deeds_of_turn_eq h, h]
  exact .stays

/-- The beginning of a call. -/
theorem move_call (turn : Turn) {phase : Phase} (hcaller : room.callers[turn.caller]? = some caller)
    (hturn : room.turn turn = room.call turn.caller phase)
    (hphase : phase = .arriving ∨ phase = .poisoning ∧ turn = .poisons turn.caller) :
    Move room turn caller (room.turn turn) (room.deeds turn) := by
  obtain ⟨now, results⟩ := caller
  unfold call at hturn
  rw [hcaller] at hturn
  cases now with
  | idle =>
    refine .of_turn_eq turn room hcaller hturn rfl ?_ (.begins rfl hphase)
    simp [Caller.deeds]
  | _ => exact .of_turn_eq_self turn hturn

/-- The arrival of a caller. -/
theorem move_arrive (turn : Turn) (hcaller : room.callers[turn.caller]? = some caller)
    (hphase : caller.phase = .arriving)
    (hturn : room.turn turn = if room.isFree then room.arrive turn.caller caller else room) :
    Move room turn caller (room.turn turn) (room.deeds turn) := by
  by_cases hfree : room.isFree = true
  · rw [if_pos hfree] at hturn
    have hnone := isFree_eq_true_iff.mp hfree
    unfold arrive at hturn
    by_cases hp : room.barrier.poisoned = true
    · rw [if_pos hp] at hturn
      refine .of_turn_eq turn room hcaller hturn rfl ?_ (.turnedAway hphase hnone hp)
      simp [Caller.deeds, hphase]
    · rw [if_neg hp] at hturn
      have hfalse := Bool.eq_false_iff.mpr hp
      by_cases hlast : room.barrier.arrived + 1 = room.barrier.threads
      · rw [if_pos hlast] at hturn
        refine .of_turn_eq turn (room.opening turn.caller) hcaller hturn rfl ?_
          (.opens hphase hnone hfalse hlast)
        simp [Caller.deeds, hphase]
      · rw [if_neg hlast] at hturn
        refine .of_turn_eq turn (room.joined) hcaller hturn rfl ?_ (.joins hphase hnone hfalse hlast)
        simp [Caller.deeds, hphase]
  · rw [if_neg hfree] at hturn
    exact .of_turn_eq_self turn hturn

/-- The second look of a caller. -/
theorem move_recheck (turn : Turn) {generation : UInt64}
    (hcaller : room.callers[turn.caller]? = some caller) (hphase : caller.phase = .rechecking generation)
    (hturn : room.turn turn =
      if room.isFree then room.recheck turn.caller caller generation else room) :
    Move room turn caller (room.turn turn) (room.deeds turn) := by
  by_cases hfree : room.isFree = true
  · rw [if_pos hfree] at hturn
    have hnone := isFree_eq_true_iff.mp hfree
    unfold recheck at hturn
    by_cases hover : room.barrier.generation ≠ generation
    · rw [if_pos hover] at hturn
      refine .of_turn_eq turn room hcaller hturn rfl ?_ (.finds hphase hnone hover)
      simp [Caller.deeds, hphase]
    · rw [if_neg hover] at hturn
      have hsame := Decidable.not_not.mp hover
      by_cases hp : room.barrier.poisoned = true
      · rw [if_pos hp] at hturn
        refine .of_turn_eq turn room hcaller hturn rfl ?_ (.fails hphase hnone hsame hp)
        simp [Caller.deeds, hphase]
      · rw [if_neg hp] at hturn
        refine .of_turn_eq turn room hcaller hturn rfl ?_ (.parks hphase hnone hsame (Bool.eq_false_iff.mpr hp))
        simp [Caller.deeds, hphase]
  · rw [if_neg hfree] at hturn
    exact .of_turn_eq_self turn hturn

/-- The next atomic step of a caller. -/
theorem move_step {index : Nat} (hcaller : room.callers[index]? = some caller) :
    Move room (.steps index) caller (room.turn (.steps index)) (room.deeds (.steps index)) := by
  have hturn : room.turn (.steps index) = room.step index := rfl
  unfold step at hturn
  rw [hcaller] at hturn
  obtain ⟨phase, results⟩ := caller
  cases phase with
  | idle => exact .of_turn_eq_self (.steps index) hturn
  | parked generation => exact .of_turn_eq_self (.steps index) hturn
  | arriving => exact move_arrive (.steps index) hcaller rfl hturn
  | opening =>
    refine .of_turn_eq (.steps index) (room.shown) hcaller hturn ?_ ?_ (.shows rfl)
    · simp [shown, notifyAll]
    · simp [Caller.deeds]
  | spinning generation round =>
    dsimp only at hturn
    by_cases hround : spinLimit ≤ round
    · rw [if_pos hround] at hturn
      refine .of_turn_eq (.steps index) room hcaller hturn rfl ?_ (.looks rfl rfl nofun)
      simp [Caller.deeds]
    · rw [if_neg hround] at hturn
      by_cases hshown : room.barrier.shownGeneration ≠ generation
      · rw [if_pos hshown] at hturn
        refine .of_turn_eq (.steps index) room hcaller hturn rfl ?_ (.sees rfl hshown)
        simp [Caller.deeds]
      · rw [if_neg hshown] at hturn
        refine .of_turn_eq (.steps index) room hcaller hturn rfl ?_ (.looks rfl rfl nofun)
        simp [Caller.deeds]
  | peeking generation round =>
    refine .of_turn_eq (.steps index) room hcaller hturn rfl ?_ (.looks rfl ?_ ?_)
    · simp [Caller.deeds]
    · split <;> rfl
    · split <;> exact nofun
  | rechecking generation => exact move_recheck (.steps index) hcaller rfl hturn
  | poisoning =>
    dsimp only at hturn
    by_cases hfree : room.isFree = true
    · rw [if_pos hfree] at hturn
      refine .of_turn_eq (.steps index) (room.closing index) hcaller hturn rfl ?_
        (.closes rfl (isFree_eq_true_iff.mp hfree))
      simp [Caller.deeds]
    · rw [if_neg hfree] at hturn
      exact .of_turn_eq_self (.steps index) hturn
  | exposing =>
    refine .of_turn_eq (.steps index) (room.exposed) hcaller hturn ?_ ?_ (.exposes rfl)
    · simp [exposed, notifyAll]
    · simp [Caller.deeds]

/-- A wake-up that nobody asked for. -/
theorem move_wake {index : Nat} (hcaller : room.callers[index]? = some caller) :
    Move room (.wakes index) caller (room.turn (.wakes index)) (room.deeds (.wakes index)) := by
  have hturn : room.turn (.wakes index) = room.wake index := rfl
  unfold wake at hturn
  rw [hcaller] at hturn
  obtain ⟨phase, results⟩ := caller
  cases phase with
  | parked generation =>
    refine .of_turn_eq (.wakes index) room hcaller hturn rfl ?_ (.looks rfl rfl nofun)
    simp [Caller.deeds]
  | _ => exact .of_turn_eq_self (.wakes index) (hturn.trans (withCaller_self hcaller))

/-- **A turn does one of these things.** -/
theorem move_turn (turn : Turn) (hcaller : room.callers[turn.caller]? = some caller) :
    Move room turn caller (room.turn turn) (room.deeds turn) := by
  cases turn with
  | waits index => exact move_call _ hcaller rfl (.inl rfl)
  | poisons index => exact move_call _ hcaller rfl (.inr ⟨rfl, rfl⟩)
  | steps index => exact move_step hcaller
  | wakes index => exact move_wake hcaller

/-- Nobody else can take a turn. -/
theorem turn_of_no_caller {turn : Turn} (h : room.callers[turn.caller]? = none) :
    room.turn turn = room := by
  cases turn with
  | waits index => simp only [BarrierRoom.turn, call, show room.callers[index]? = none from h]
  | poisons index => simp only [BarrierRoom.turn, call, show room.callers[index]? = none from h]
  | steps index => simp only [BarrierRoom.turn, step, show room.callers[index]? = none from h]
  | wakes index => simp only [BarrierRoom.turn, wake, show room.callers[index]? = none from h]

end BarrierRoom

end BlockMachine
