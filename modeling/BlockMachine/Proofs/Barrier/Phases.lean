import BlockMachine.Proofs.Barrier.Moves

/-!
# The phases that a barrier separates

As many lanes as the barrier is for use it, each waiting again and again, and nobody poisons it.

* `BarrierRoom.InRound` — where all lanes stand once a number of rounds is over.  The number is not bounded,
  the counter of the barrier is it modulo `2 ^ 64`.
* `BarrierRoom.InRound.turn` — a turn keeps the lanes in their round, or ends it.
* `BarrierRoom.phases_separate` — nobody completes a wait before everyone has begun as many, and no two lanes
  are more than one wait apart.

The counter is only compared for inequality.  What makes this safe is that a lane that has arrived in the
current round can see another generation only between two steps of the lane that opens the barrier, and then
nobody has arrived in the current round.
-/

set_option autoImplicit false

namespace BlockMachine

namespace Caller

/-- The waits that a caller has begun that only waits. -/
def begun (caller : Caller) : Nat := caller.results.length + if caller.phase = .idle then 0 else 1

/-- Whether a caller has arrived in the current round and is not the last to do so. -/
def hasJoined (rounds : Nat) (caller : Caller) : Bool :=
  caller.phase.generation?.isSome && caller.results.length == rounds

/-- A caller of a barrier that has been opened a number of times. -/
structure InRound (rounds : Nat) (caller : Caller) : Prop where
  outside : caller.phase = .idle ∨ caller.phase = .arriving → caller.results.length = rounds
  opening : caller.phase = .opening → caller.results.length + 1 = rounds
  /-- A lane that waits is in the current round, or is still leaving the one before. -/
  waiting : ∀ generation, caller.phase.generation? = some generation →
    generation = UInt64.ofNat caller.results.length ∧
      (caller.results.length = rounds ∨ caller.results.length + 1 = rounds)
  peaceful : caller.phase ≠ .poisoning ∧ caller.phase ≠ .exposing
  opened : ∀ result ∈ caller.results, result = .opened

variable {rounds : Nat} {caller : Caller}

/-- A caller has completed all rounds, or all but one. -/
theorem InRound.completed (h : caller.InRound rounds) :
    caller.results.length = rounds ∨ caller.results.length + 1 = rounds := by
  obtain ⟨phase, results⟩ := caller
  cases phase with
  | idle => exact .inl (h.outside (.inl rfl))
  | arriving => exact .inl (h.outside (.inr rfl))
  | opening => exact .inr (h.opening rfl)
  | spinning generation round => exact (h.waiting generation rfl).2
  | peeking generation round => exact (h.waiting generation rfl).2
  | rechecking generation => exact (h.waiting generation rfl).2
  | parked generation => exact (h.waiting generation rfl).2
  | poisoning => exact absurd rfl h.peaceful.1
  | exposing => exact absurd rfl h.peaceful.2

/-- Who is outside has completed all rounds, and everyone else has begun one more wait. -/
theorem InRound.le_begun (h : caller.InRound rounds) : rounds ≤ caller.begun := by
  by_cases hidle : caller.phase = .idle
  · rw [begun, if_pos hidle]
    exact Nat.le_of_eq (h.outside (.inl hidle)).symm
  · have := h.completed
    rw [begun, if_neg hidle]
    omega

theorem InRound.notified (h : caller.InRound rounds) : caller.notified.InRound rounds := by
  obtain ⟨phase, results⟩ := caller
  cases phase with
  | parked generation => exact ⟨nofun, nofun, h.waiting, ⟨nofun, nofun⟩, h.opened⟩
  | _ => exact h

/-- A caller that has its answer. -/
theorem InRound.returned (h : caller.InRound rounds) (hlength : caller.results.length + 1 = rounds) :
    (caller.returned .opened).InRound rounds where
  outside _ := hlength
  opening := nofun
  waiting := nofun
  peaceful := ⟨nofun, nofun⟩
  opened := by
    intro result hresult
    rcases List.mem_cons.mp hresult with rfl | hold
    · rfl
    · exact h.opened result hold

@[simp] theorem hasJoined_notified : caller.notified.hasJoined rounds = caller.hasJoined rounds := by
  simp [hasJoined]

theorem hasJoined_of_waiting {generation : UInt64} (h : caller.phase.generation? = some generation)
    (hlength : caller.results.length = rounds) : caller.hasJoined rounds = true := by
  rw [hasJoined, h, hlength, beq_self_eq_true]
  rfl

theorem hasJoined_moveTo {phase : Phase} {generation : UInt64} (h : phase.generation? = some generation)
    (hlength : caller.results.length = rounds) : (caller.moveTo phase).hasJoined rounds = true :=
  hasJoined_of_waiting h hlength

/-- Who is still leaving the round before has not joined the current one. -/
theorem hasJoined_of_leaving (hlength : caller.results.length + 1 = rounds) :
    caller.hasJoined rounds = false := by
  rw [hasJoined, beq_false_of_ne (by omega), Bool.and_false]

theorem hasJoined_of_outside (h : caller.phase.generation? = none) : caller.hasJoined rounds = false := by
  rw [hasJoined, h]
  rfl

end Caller

namespace BarrierRoom

/-- All lanes of a block at its barrier, which has been opened a number of times. -/
structure InRound (threads rounds : Nat) (room : BarrierRoom) : Prop where
  threads_eq : room.barrier.threads = threads
  length_eq : room.callers.length = threads
  arrived_eq : room.barrier.arrived = room.callers.countP (Caller.hasJoined rounds)
  arrived_lt : room.barrier.arrived < threads
  generation_eq : room.barrier.generation = UInt64.ofNat rounds
  poisoned_eq : room.barrier.poisoned = false
  shown_eq : room.holder = none → room.barrier.shownGeneration = room.barrier.generation
  /-- The lock is held between two steps only to open the barrier. -/
  arrived_of_held : room.holder ≠ none → room.barrier.arrived = 0
  callers : ∀ (index : Nat) (caller : Caller), room.callers[index]? = some caller → caller.InRound rounds

variable {threads rounds index : Nat} {room : BarrierRoom} {caller changed : Caller}

/-- A count of callers after one of them has changed. -/
theorem countP_withCaller (p : Caller → Bool) (changed : Caller) (hcaller : room.callers[index]? = some caller) :
    (room.withCaller index changed).callers.countP p + (p caller).toNat =
      room.callers.countP p + (p changed).toNat := by
  obtain ⟨hlt, rfl⟩ := List.getElem?_eq_some_iff.mp hcaller
  have hset : (room.withCaller index changed).callers.countP p = _ := List.countP_set hlt
  have hpos : p room.callers[index] = true → 0 < room.callers.countP p :=
    fun h => List.countP_pos_iff.mpr ⟨_, List.getElem_mem hlt, h⟩
  rw [hset]
  cases hbefore : p room.callers[index] with
  | false => cases p changed <;> simp
  | true =>
    have := hpos hbefore
    cases p changed <;> simp <;> omega

namespace InRound

/-- A caller goes on, and has joined the round after that if it had before. -/
theorem withCaller (h : room.InRound threads rounds) (hcaller : room.callers[index]? = some caller)
    (hchanged : changed.InRound rounds) (hjoined : changed.hasJoined rounds = caller.hasJoined rounds) :
    (room.withCaller index changed).InRound threads rounds where
  threads_eq := h.threads_eq
  length_eq := List.length_set.trans h.length_eq
  arrived_eq := by
    have hcount := countP_withCaller (Caller.hasJoined rounds) changed hcaller
    rw [hjoined] at hcount
    exact h.arrived_eq.trans (Nat.add_right_cancel hcount).symm
  arrived_lt := h.arrived_lt
  generation_eq := h.generation_eq
  poisoned_eq := h.poisoned_eq
  shown_eq := h.shown_eq
  arrived_of_held := h.arrived_of_held
  callers := forall_withCaller hchanged fun other caller _ => h.callers other caller

/-- A caller arrives that is not the last of its round. -/
theorem joined (h : room.InRound threads rounds) (hcaller : room.callers[index]? = some caller)
    (hphase : caller.phase = .arriving) (hfree : room.holder = none)
    (hlast : room.barrier.arrived + 1 ≠ room.barrier.threads) :
    (room.joined.withCaller index (caller.moveTo (.spinning room.barrier.generation 0))).InRound
      threads rounds := by
  have hlength := (h.callers index caller hcaller).outside (.inr hphase)
  have hcount := countP_withCaller (Caller.hasJoined rounds)
    (caller.moveTo (.spinning room.barrier.generation 0))
    (show room.joined.callers[index]? = some caller from hcaller)
  rw [Caller.hasJoined_of_outside (congrArg Phase.generation? hphase),
    Caller.hasJoined_moveTo (Phase.generation?.eq_1 _ _) hlength] at hcount
  refine ⟨h.threads_eq, List.length_set.trans h.length_eq, ?_, ?_, h.generation_eq, h.poisoned_eq,
    h.shown_eq, fun hheld => absurd hfree hheld, forall_withCaller ?_ fun other caller _ => h.callers other caller⟩
  · exact (congrArg (· + 1) h.arrived_eq).trans hcount.symm
  · exact Nat.lt_of_le_of_ne h.arrived_lt (h.threads_eq ▸ hlast)
  · refine ⟨nofun, nofun, ?_, ⟨nofun, nofun⟩, (h.callers index caller hcaller).opened⟩
    intro generation hgeneration
    obtain rfl := Option.some.inj hgeneration
    exact ⟨h.generation_eq.trans (congrArg UInt64.ofNat hlength.symm), .inl hlength⟩

/-- When the last caller of a round arrives, all others have joined it. -/
theorem hasJoined_of_last (h : room.InRound threads rounds) (hcaller : room.callers[index]? = some caller)
    (hphase : caller.phase = .arriving) (hlast : room.barrier.arrived + 1 = room.barrier.threads)
    {other : Nat} {sibling : Caller} (hother : other ≠ index) (hsibling : room.callers[other]? = some sibling) :
    sibling.hasJoined rounds = true := by
  -- with the last caller counted too, all callers of the room are
  have hlength := (h.callers index caller hcaller).outside (.inr hphase)
  have hcount := countP_withCaller (Caller.hasJoined rounds) (caller.moveTo (.spinning 0 0)) hcaller
  rw [Caller.hasJoined_of_outside (congrArg Phase.generation? hphase),
    Caller.hasJoined_moveTo (Phase.generation?.eq_1 _ _) hlength, ← h.arrived_eq] at hcount
  have hall : (room.withCaller index (caller.moveTo (.spinning 0 0))).callers.countP (Caller.hasJoined rounds) =
      (room.withCaller index (caller.moveTo (.spinning 0 0))).callers.length := by
    rw [show (room.withCaller index (caller.moveTo (.spinning 0 0))).callers.length = threads from
      List.length_set.trans h.length_eq, ← h.threads_eq, ← hlast]
    exact hcount
  refine List.countP_eq_length.mp hall sibling (List.mem_of_getElem? (i := other) ?_)
  rw [BarrierRoom.withCaller, List.getElem?_set_ne hother.symm]
  exact hsibling

/-- The last caller of a round arrives. -/
theorem opening (h : room.InRound threads rounds) (hthreads : 0 < threads)
    (hcaller : room.callers[index]? = some caller) (hphase : caller.phase = .arriving)
    (hlast : room.barrier.arrived + 1 = room.barrier.threads) :
    ((room.opening index).withCaller index (caller.moveTo .opening)).InRound threads (rounds + 1) := by
  have hlength := (h.callers index caller hcaller).outside (.inr hphase)
  have hcallers : ∀ (other : Nat) (sibling : Caller),
      ((room.opening index).withCaller index (caller.moveTo .opening)).callers[other]? = some sibling →
        sibling.InRound (rounds + 1) ∧ sibling.results.length = rounds := by
    refine forall_withCaller (P := fun _ sibling =>
      sibling.InRound (rounds + 1) ∧ sibling.results.length = rounds) ?_ ?_
    · exact ⟨⟨nofun, fun _ => congrArg (· + 1) hlength, nofun, ⟨nofun, nofun⟩,
        (h.callers index caller hcaller).opened⟩, hlength⟩
    · intro other sibling hother hsibling
      have hjoined := h.hasJoined_of_last hcaller hphase hlast hother hsibling
      have hround := h.callers other sibling hsibling
      obtain ⟨hsome, heq⟩ := Bool.and_eq_true_iff.mp hjoined
      have hlen : sibling.results.length = rounds := eq_of_beq heq
      obtain ⟨generation, hgeneration⟩ := Option.isSome_iff_exists.mp hsome
      refine ⟨⟨?_, ?_, ?_, hround.peaceful, hround.opened⟩, hlen⟩
      · rintro (hp | hp) <;> (rw [hp] at hgeneration; cases hgeneration)
      · intro hp
        rw [hp] at hgeneration
        cases hgeneration
      · exact fun g hg => ⟨(hround.waiting g hg).1, .inr (congrArg (· + 1) hlen)⟩
  refine ⟨h.threads_eq, List.length_set.trans h.length_eq, ?_, hthreads, ?_, h.poisoned_eq, nofun,
    fun _ => rfl, fun other sibling hsibling => (hcallers other sibling hsibling).1⟩
  · refine (List.countP_eq_zero.mpr fun sibling hmem => ?_).symm
    obtain ⟨other, hother⟩ := List.getElem?_of_mem hmem
    rw [Caller.hasJoined_of_leaving (congrArg (· + 1) (hcallers other sibling hother).2)]
    exact Bool.false_ne_true
  · change room.barrier.generation + 1 = _
    rw [h.generation_eq, UInt64.ofNat_add]
    rfl

/-- The barrier is shown to be open. -/
theorem shown (h : room.InRound threads rounds) : room.shown.InRound threads rounds where
  threads_eq := h.threads_eq
  length_eq := (List.length_map Caller.notified).trans h.length_eq
  arrived_eq := by
    refine h.arrived_eq.trans ?_
    rw [show room.shown.callers = room.callers.map Caller.notified from rfl, List.countP_map]
    exact List.countP_congr fun caller _ => by simp
  arrived_lt := h.arrived_lt
  generation_eq := h.generation_eq
  poisoned_eq := h.poisoned_eq
  shown_eq _ := rfl
  arrived_of_held hheld := absurd rfl hheld
  callers := by
    intro other sibling hsibling
    obtain ⟨before, hbefore, rfl⟩ := exists_of_notifyAll hsibling
    exact (h.callers other before hbefore).notified

/-- Who has joined the current round sees no other generation. -/
theorem leaving_of_shown_ne (h : room.InRound threads rounds) (hcaller : room.callers[index]? = some caller)
    {generation : UInt64} (hgeneration : caller.phase.generation? = some generation)
    (hne : room.barrier.shownGeneration ≠ generation) : caller.results.length + 1 = rounds := by
  obtain ⟨heq, hcurrent | hleaving⟩ := (h.callers index caller hcaller).waiting generation hgeneration
  · -- the barrier is being opened then, and a caller that has joined would be counted
    have hheld : room.holder ≠ none := by
      intro hfree
      rw [h.shown_eq hfree, h.generation_eq, heq, hcurrent] at hne
      exact hne rfl
    have hcounted : 0 < room.callers.countP (Caller.hasJoined rounds) :=
      List.countP_pos_iff.mpr ⟨caller, List.mem_of_getElem? hcaller,
        Caller.hasJoined_of_waiting hgeneration hcurrent⟩
    rw [← h.arrived_eq, h.arrived_of_held hheld] at hcounted
    exact absurd hcounted (Nat.lt_irrefl 0)
  · exact hleaving

/-- A caller that is leaving the round before returns. -/
theorem returned (h : room.InRound threads rounds) (hcaller : room.callers[index]? = some caller)
    (hlength : caller.results.length + 1 = rounds) :
    (room.withCaller index (caller.returned .opened)).InRound threads rounds :=
  h.withCaller hcaller ((h.callers index caller hcaller).returned hlength)
    ((Caller.hasJoined_of_outside rfl).trans (Caller.hasJoined_of_leaving hlength).symm)

/-- A caller that waits goes on to wait. -/
theorem waiting (h : room.InRound threads rounds) (hcaller : room.callers[index]? = some caller)
    {generation : UInt64} {phase : Phase} (hgeneration : caller.phase.generation? = some generation)
    (hphase : phase.generation? = some generation) :
    (room.withCaller index (caller.moveTo phase)).InRound threads rounds := by
  have hround := h.callers index caller hcaller
  refine h.withCaller hcaller ⟨?_, ?_, ?_, ?_, hround.opened⟩ ?_
  · rintro (rfl | rfl) <;> cases hphase
  · rintro rfl
    cases hphase
  · intro g hg
    exact hround.waiting g (hgeneration.trans (hphase.symm.trans hg))
  · constructor <;> (rintro rfl; cases hphase)
  · rw [Caller.hasJoined, Caller.hasJoined, Caller.moveTo_phase, Caller.moveTo_results, hphase, hgeneration]

/-- **A turn keeps all lanes in their round, or ends it.** -/
theorem turn (h : room.InRound threads rounds) (hthreads : 0 < threads) (turn : Turn)
    (hpeace : turn ≠ .poisons turn.caller) :
    (room.turn turn).InRound threads rounds ∨ (room.turn turn).InRound threads (rounds + 1) := by
  cases hcaller : room.callers[turn.caller]? with
  | none => exact .inl ((turn_of_no_caller hcaller).symm ▸ h)
  | some caller =>
    have hround := h.callers turn.caller caller hcaller
    obtain ⟨room', hroom'⟩ : ∃ room', room' = room.turn turn := ⟨_, rfl⟩
    obtain ⟨deeds, hdeeds⟩ : ∃ deeds, deeds = room.deeds turn := ⟨_, rfl⟩
    have hmove := move_turn turn hcaller
    rw [← hroom', ← hdeeds] at hmove
    rw [← hroom']
    cases hmove with
    | stays => exact .inl h
    | begins hidle hphase =>
      obtain rfl : _ = Phase.arriving := hphase.resolve_right fun hp => hpeace hp.2
      refine .inl (h.withCaller hcaller ⟨fun _ => hround.outside (.inl hidle), nofun, nofun,
        ⟨nofun, nofun⟩, hround.opened⟩ ?_)
      rw [Caller.hasJoined_of_outside rfl, Caller.hasJoined_of_outside (congrArg Phase.generation? hidle)]
    | turnedAway _ _ hp => exact absurd (hp.symm.trans h.poisoned_eq) nofun
    | opens hphase _ _ hlast => exact .inr (h.opening hthreads hcaller hphase hlast)
    | joins hphase hfree _ hlast => exact .inl (h.joined hcaller hphase hfree hlast)
    | shows hphase =>
      exact .inl (h.shown.returned (getElem?_notifyAll hcaller (congrArg Phase.generation? hphase))
        (hround.opening hphase))
    | sees hphase hshown =>
      exact .inl (h.returned hcaller
        (h.leaving_of_shown_ne hcaller (congrArg Phase.generation? hphase) hshown))
    | finds hphase hfree hover =>
      exact .inl (h.returned hcaller
        (h.leaving_of_shown_ne hcaller (congrArg Phase.generation? hphase) (h.shown_eq hfree ▸ hover)))
    | fails _ _ _ hp => exact absurd (hp.symm.trans h.poisoned_eq) nofun
    | parks hphase => exact .inl (h.waiting hcaller (congrArg Phase.generation? hphase) rfl)
    | looks hgeneration hphase => exact .inl (h.waiting hcaller hgeneration hphase)
    | closes hphase => exact absurd hphase hround.peaceful.1
    | exposes hphase => exact absurd hphase hround.peaceful.2

/-- All lanes outside, before the first round. -/
theorem gather (hthreads : 0 < threads) :
    (Drill.gather { threads := threads } threads).InRound threads 0 where
  threads_eq := rfl
  length_eq := List.length_replicate
  arrived_eq := by
    refine (List.countP_eq_zero.mpr fun caller hcaller => ?_).symm
    rw [List.eq_of_mem_replicate hcaller]
    exact Bool.false_ne_true
  arrived_lt := hthreads
  generation_eq := rfl
  poisoned_eq := rfl
  shown_eq _ := rfl
  arrived_of_held hheld := absurd rfl hheld
  callers := by
    intro index caller hcaller
    rw [List.eq_of_mem_replicate (List.mem_of_getElem? hcaller)]
    exact ⟨fun _ => rfl, nofun, nofun, ⟨nofun, nofun⟩, nofun⟩

/-- Turns without a poisoning keep all lanes together. -/
theorem run (hthreads : 0 < threads) {turns : List Turn} (hpeace : ∀ caller, Turn.poisons caller ∉ turns) :
    ∀ {room : BarrierRoom} {rounds : Nat}, room.InRound threads rounds →
      ∃ rounds', (room.run turns).InRound threads rounds' := by
  induction turns with
  | nil => exact fun h => ⟨_, h⟩
  | cons turn turns ih =>
    intro room rounds h
    have hrest : ∀ caller, Turn.poisons caller ∉ turns :=
      fun caller hmem => hpeace caller (List.mem_cons_of_mem _ hmem)
    have hturn : turn ≠ .poisons turn.caller :=
      fun heq => hpeace turn.caller (heq ▸ List.mem_cons_self)
    rcases h.turn hthreads turn hturn with hsame | hnext
    · exact ih hrest hsame
    · exact ih hrest hnext

end InRound

/-- **A barrier separates the phases of its lanes.**  As many lanes as it is for wait again and again, in
any interleaving of their steps, for as long as they like: every wait that has returned was answered with
`opened`, nobody has completed a wait before everyone has begun as many, and the numbers of waits completed
by two lanes differ by one at most. -/
theorem phases_separate {threads : Nat} (hthreads : 0 < threads) {turns : List Turn}
    (hpeace : ∀ caller, Turn.poisons caller ∉ turns) {one other : Caller}
    (hone : one ∈ ((Drill.gather { threads := threads } threads).run turns).callers)
    (hother : other ∈ ((Drill.gather { threads := threads } threads).run turns).callers) :
    (∀ result ∈ one.results, result = .opened) ∧
      one.results.length ≤ other.begun ∧ one.results.length ≤ other.results.length + 1 := by
  obtain ⟨rounds, h⟩ := (InRound.gather hthreads).run hthreads hpeace
  obtain ⟨i, hi⟩ := List.getElem?_of_mem hone
  obtain ⟨j, hj⟩ := List.getElem?_of_mem hother
  have hfirst := h.callers i one hi
  have hsecond := h.callers j other hj
  have := hfirst.completed
  have := hsecond.completed
  have := hsecond.le_begun
  exact ⟨hfirst.opened, by omega, by omega⟩

/-- The second of two callers opens the barrier and waits again, and the first one has not looked yet. -/
def overtaking : List Turn := [.waits 0, .steps 0, .waits 1, .steps 1, .steps 1, .waits 1, .steps 1]

theorem phases_separate_overtaking :
    let room := (Drill.gather { threads := 2 } 2).run overtaking
    let slow : Caller := ⟨.spinning 0 0, []⟩
    let fast : Caller := ⟨.spinning 1 0, [.opened]⟩
    room.callers = [slow, fast] ∧ (∀ result ∈ fast.results, result = .opened) ∧
      fast.results.length ≤ slow.begun ∧ fast.results.length ≤ slow.results.length + 1 := by
  intro room slow fast
  have hcallers : room.callers = [slow, fast] := by decide
  have hslow : slow ∈ room.callers := hcallers ▸ List.mem_cons_self
  have hfast : fast ∈ room.callers := hcallers ▸ List.mem_cons_of_mem _ List.mem_cons_self
  have hpeace : ∀ caller, Turn.poisons caller ∉ overtaking := fun caller => by simp [overtaking]
  exact ⟨hcallers, phases_separate (by decide : 0 < 2) hpeace hfast hslow⟩

end BarrierRoom

end BlockMachine
