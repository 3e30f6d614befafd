import BlockMachine.Proofs.Barrier.Balance
import BlockMachine.Proofs.Interleaving.Echoes

/-!
# Teams come to rest

A thread that waits for the lock, or sleeps until somebody wakes it, does nothing in its turns.  A team in which
nobody can do anything has come to its end, whatever its threads went through to get there: no lock is left taken, no
wake-up is lost, and nobody waits for a lane that has unwound.

* `Team.Parted` — a lane has ended while another one waits for it.
* `Team.Mirrors.isOver_of_rests` — a team at rest is over, unless its lanes have parted.
* `Team.Mirrors.exists_standstill` — every team can be brought to rest.
-/

set_option autoImplicit false

namespace BlockMachine

variable {σ α β : Type}

namespace BarrierRoom

variable {threads rounds index : Nat} {room : BarrierRoom} {caller : Caller}

/-- While the lock is free, a caller whose step does nothing is in no call, or it is parked. -/
theorem idle_or_parked_of_step_eq (hlocked : room.Locked) (hfree : room.holder = none)
    (hcaller : room.callers[index]? = some caller) (hstep : room.step index = room) :
    caller.phase = .idle ∨ ∃ generation, caller.phase = .parked generation := by
  have hisFree : room.isFree = true := isFree_eq_true_iff.mpr hfree
  have hlocks := hlocked.not_holdsLock hfree hcaller
  -- otherwise the step moves it on
  have hmoved : ∀ {rest : BarrierRoom} {changed : Caller}, room.step index = rest.withCaller index changed →
      rest.callers = room.callers → changed = caller := by
    intro rest changed hmoves hcallers
    have hnow := getElem?_withCaller (hcallers ▸ hcaller : rest.callers[index]? = some caller) changed
    rw [← hmoves, hstep, hcaller] at hnow
    exact (Option.some.inj hnow).symm
  obtain ⟨phase, results⟩ := caller
  simp only [step, hcaller, hisFree, if_true] at hmoved
  cases phase with
  | idle => exact .inl rfl
  | parked generation => exact .inr ⟨generation, rfl⟩
  | opening => cases hlocks
  | exposing => cases hlocks
  | poisoning => exact Phase.noConfusion (congrArg Caller.phase (hmoved rfl rfl))
  | arriving =>
    simp only [arrive] at hmoved
    split at hmoved
    · exact Phase.noConfusion (congrArg Caller.phase (hmoved rfl rfl))
    · split at hmoved
      · exact Phase.noConfusion (congrArg Caller.phase (hmoved rfl rfl))
      · exact Phase.noConfusion (congrArg Caller.phase (hmoved rfl rfl))
  | spinning generation round =>
    dsimp only at hmoved
    split at hmoved
    · exact Phase.noConfusion (congrArg Caller.phase (hmoved rfl rfl))
    · split at hmoved
      · exact Phase.noConfusion (congrArg Caller.phase (hmoved rfl rfl))
      · exact Phase.noConfusion (congrArg Caller.phase (hmoved rfl rfl))
  | peeking generation round =>
    dsimp only at hmoved
    split at hmoved
    · exact Phase.noConfusion (congrArg Caller.phase (hmoved rfl rfl))
    · exact Phase.noConfusion (congrArg Caller.phase (hmoved rfl rfl))
  | rechecking generation =>
    simp only [recheck] at hmoved
    split at hmoved
    · exact Phase.noConfusion (congrArg Caller.phase (hmoved rfl rfl))
    · split at hmoved
      · exact Phase.noConfusion (congrArg Caller.phase (hmoved rfl rfl))
      · exact Phase.noConfusion (congrArg Caller.phase (hmoved rfl rfl))

/-- A parked caller has joined the round. -/
theorem Attended.joined_of_parked (h : room.Attended threads rounds) (hfree : room.holder = none)
    (hcaller : room.callers[index]? = some caller) (hwaits : caller.Waits rounds) {generation : UInt64}
    (hparked : caller.phase = .parked generation) : caller.Joined rounds := by
  have hgeneration := (h.locked.parked hfree index caller hcaller generation hparked).1
  refine h.joined_of_eq (congrArg Phase.generation? hparked) ?_ hgeneration
  cases hwaits with
  | comes hcomes => exact absurd (hcomes.phase.symm.trans hparked) nofun
  | joined hjoined => exact .inl hjoined
  | leaves hleaves => exact .inr hleaves

/-- Some lane has not joined the round. -/
theorem Attended.exists_not_hasJoined (h : room.Attended threads rounds) (hpos : 0 < threads) :
    ∃ other < threads, ∃ caller, room.callers[other]? = some caller ∧ caller.hasJoined rounds = false := by
  by_contra hall
  have hjoined : ∀ other < threads, ∀ caller, room.callers[other]? = some caller →
      caller.hasJoined rounds = true := by
    intro other hother caller hcaller
    by_contra hnot
    exact hall ⟨other, hother, caller, hcaller, Bool.eq_false_iff.mpr hnot⟩
  have hle := h.counts.le
  rw [countP_eq_of_hasJoined h.length_eq
    (fun host hhost => Caller.hasJoined_of_outside (h.host host hhost)) hjoined] at hle
  exact absurd (h.arrived_lt hpos) (Nat.not_lt.mpr hle)

end BarrierRoom

namespace Team

variable {rounds lane index : Nat} {team : Team σ α β} {crew : Crew σ α β} {caller : Caller}
  {thread : Thread σ α β}

/-- No lane has panicked. -/
def Calm (team : Team σ α β) : Prop :=
  ∀ (lane : Nat) (thread : Thread σ α β), team.threads[lane]? = some thread → thread.panic? = none

/-- How many waits of a lane have been answered. -/
def waits (team : Team σ α β) (lane : Nat) : Option Nat :=
  (team.room.callers[lane]?).map fun caller => caller.results.length

/-- Whether lanes have parted: one has come to its normal end while another one waits for it. -/
def Parted (team : Team σ α β) : Prop :=
  ∃ (lane other : Nat) (result : β) (next : Lane σ α β), team.threads[lane]? = some (.finished result) ∧
    team.threads[other]? = some (.waiting next) ∧ team.waits lane = team.waits other

/-! ## At rest -/

/-- At rest no step at the barrier does anything. -/
theorem Mirrors.step_eq_of_rests (h : Mirrors rounds team crew) (hrests : ∀ turn, team.Rests turn)
    (hcaller : team.room.callers[index]? = some caller) : team.room.step index = team.room := by
  have hidle : caller.phase = .idle → team.room.step index = team.room := BarrierRoom.step_of_idle hcaller
  have hindex : index < team.threads.length + 1 := h.attended.length_eq ▸ (List.getElem?_eq_some_iff.mp hcaller).1
  rcases Nat.lt_succ_iff_lt_or_eq.mp hindex with hlane | rfl
  · have hthread := List.getElem?_eq_getElem hlane
    generalize team.threads[index] = thread at hthread
    obtain ⟨now, station, hnow, _, hseat⟩ := h.exists_seat hthread
    obtain rfl := Option.some.inj (hcaller.symm.trans hnow)
    have hrest := hrests (.steps index)
    simp only [Rests, hthread] at hrest
    cases hseat with
    | awaited _ hnow _ _ => exact hidle hnow
    | dismissed _ hnow _ _ => exact hidle hnow
    | finished _ hnow _ _ => exact hidle hnow
    | unwound _ hnow _ _ _ => exact hidle hnow
    | running _ _ _ _ => exact hrest.elim
    | reporting _ _ _ _ _ => exact hrest.elim
    | mustering _ _ _ => exact hrest
    | coming _ _ _ => exact hrest
    | joined _ _ _ => exact hrest
    | turnedAway _ _ _ _ => exact hrest
    | leaving _ _ => exact hrest
    | poisoning _ _ _ _ => exact hrest
  · cases h.host caller hcaller with
    | starting _ hnow => exact hidle hnow
    | done _ hnow _ => exact hidle hnow
    | poisoning hsome _ =>
      have hrest := hrests .hosts
      unfold Rests at hrest
      rwa [if_pos hsome] at hrest

/-- At rest the lock is free. -/
theorem Mirrors.holder_of_rests (h : Mirrors rounds team crew) (hrests : ∀ turn, team.Rests turn) :
    team.room.holder = none := by
  by_contra hheld
  obtain ⟨holder, hholder⟩ := Option.ne_none_iff_exists'.mp hheld
  obtain ⟨caller, hcaller, hlocks⟩ := h.attended.locked.held holder hholder
  have hless := BarrierRoom.step_work_lt_of_holdsLock hcaller hlocks
  rw [h.step_eq_of_rests hrests hcaller] at hless
  exact Nat.lt_irrefl _ hless

/-- At rest whoever is in a call is parked. -/
theorem Mirrors.idle_or_parked (h : Mirrors rounds team crew) (hrests : ∀ turn, team.Rests turn)
    (hcaller : team.room.callers[index]? = some caller) :
    caller.phase = .idle ∨ ∃ generation, caller.phase = .parked generation :=
  BarrierRoom.idle_or_parked_of_step_eq h.attended.locked (h.holder_of_rests hrests) hcaller
    (h.step_eq_of_rests hrests hcaller)

/-- A lane that is parked in front of a barrier that is not poisoned. -/
structure Parks (rounds : Nat) (team : Team σ α β) (lane : Nat) (thread : Thread σ α β) : Prop where
  quiet : team.room.barrier.poisoned = false
  joined : ∃ caller, team.room.callers[lane]? = some caller ∧ caller.Joined rounds
  stands : (∃ program, thread = .mustering program ∧ rounds = 0) ∨ ∃ next, thread = .waiting next

/-- Where a lane stands at rest. -/
theorem Mirrors.rest_cases (h : Mirrors rounds team crew) (hrests : ∀ turn, team.Rests turn)
    (hthread : team.threads[lane]? = some thread) :
    thread.isOver = true ∨ thread.isAwaited = true ∨ Parks rounds team lane thread := by
  obtain ⟨caller, station, hcaller, _, hseat⟩ := h.exists_seat hthread
  have hphase := h.idle_or_parked hrests hcaller
  have hrest := hrests (.steps lane)
  simp only [Rests, hthread] at hrest
  have hfree := h.holder_of_rests hrests
  have hparks : caller.Waits rounds → (∃ program, thread = .mustering program ∧ rounds = 0) ∨
      (∃ next, thread = .waiting next) → Parks rounds team lane thread := by
    intro hwaits hstands
    rcases hphase with hidle | ⟨generation, hparked⟩
    · exact absurd hidle hwaits.ne_idle
    · exact ⟨(h.attended.locked.parked hfree lane caller hcaller generation hparked).2,
        ⟨caller, hcaller, h.attended.joined_of_parked hfree hcaller hwaits hparked⟩, hstands⟩
  cases hseat with
  | awaited _ _ _ _ => exact .inr (.inl rfl)
  | dismissed _ _ _ _ => exact .inl rfl
  | finished _ _ _ _ => exact .inl rfl
  | unwound _ _ _ _ _ => exact .inl rfl
  | running _ _ _ _ => exact hrest.elim
  | reporting _ _ _ _ _ => exact hrest.elim
  | mustering program hwaits hresults =>
    rcases hphase with hidle | ⟨generation, hparked⟩
    · exact absurd hidle hwaits.ne_idle
    · have hlength := (h.attended.joined_of_parked hfree hcaller hwaits hparked).length
      rw [hresults] at hlength
      exact .inr (.inr (hparks hwaits (.inl ⟨program, rfl, hlength.symm⟩)))
  | coming next hcomes _ => exact .inr (.inr (hparks (.comes hcomes) (.inr ⟨next, rfl⟩)))
  | joined next hjoined _ => exact .inr (.inr (hparks (.joined hjoined) (.inr ⟨next, rfl⟩)))
  | turnedAway next hjoined _ _ => exact .inr (.inr (hparks (.joined hjoined) (.inr ⟨next, rfl⟩)))
  | leaving next hleaves => exact .inr (.inr (hparks (.leaves hleaves) (.inr ⟨next, rfl⟩)))
  | poisoning _ hnow _ _ =>
    rcases hnow with hnow | hnow <;> (rw [hnow] at hphase; rcases hphase with hphase | ⟨_, hphase⟩ <;> cases hphase)

/-- At rest the host has started all lanes, unless it has been refused one. -/
theorem Mirrors.not_isAwaited_of_rests (h : Mirrors rounds team crew) (hrests : team.Rests .hosts)
    (hnone : ¬ team.refusal.isSome = true) (hthread : team.threads[lane]? = some thread) :
    ¬ thread.isAwaited = true := by
  intro hawaited
  have hle := (h.kept.started lane thread hthread).mp hawaited
  have hlt : team.started < team.threads.length := Nat.lt_of_le_of_lt hle (List.getElem?_eq_some_iff.mp hthread).1
  obtain ⟨next, hnext⟩ : ∃ next, team.threads[team.started]? = some next := ⟨_, List.getElem?_eq_getElem hlt⟩
  have hnextAwaited := (h.kept.started _ next hnext).mpr (Nat.le_refl _)
  unfold Rests at hrests
  rw [if_neg hnone] at hrests
  cases next with
  | awaited program => exact hrests program hnext
  | _ => cases hnextAwaited

/-- At rest no lane of a team has panicked whose barrier is not poisoned. -/
theorem Mirrors.calm_of_rests (h : Mirrors rounds team crew) (hrests : ∀ turn, team.Rests turn)
    (hquiet : team.room.barrier.poisoned = false) : team.Calm := by
  intro lane thread hthread
  obtain ⟨_, _, _, _, hseat⟩ := h.exists_seat hthread
  cases hseat with
  | unwound _ _ _ _ hp => exact absurd (hp.symm.trans hquiet) nofun
  | reporting _ _ _ _ hp => exact absurd (hp.symm.trans hquiet) nofun
  | poisoning panic _ _ _ =>
    rcases h.rest_cases hrests hthread with hover | hawaited | ⟨_, _, ⟨_, he, _⟩ | ⟨_, he⟩⟩
    · cases hover
    · cases hawaited
    · cases he
    · cases he
  | _ => rfl

/-- **A team at rest is over**, unless the lanes of a team without a panic have parted. -/
theorem Mirrors.isOver_of_rests (h : Mirrors rounds team crew) (hrests : ∀ turn, team.Rests turn)
    (heven : team.Calm → ¬ team.Parted) : team.isOver = true := by
  obtain ⟨host, hhost⟩ := h.exists_host
  unfold isOver
  by_cases hsome : team.refusal.isSome = true
  · rw [if_pos hsome, Bool.and_eq_true, List.all_eq_true]
    -- the host has poisoned the barrier, so nobody is parked
    obtain ⟨hidle, hp⟩ : host.phase = .idle ∧ team.room.barrier.poisoned = true := by
      cases h.host host hhost with
      | starting hnone _ =>
        rw [hnone] at hsome
        cases hsome
      | done _ hidle hp => exact ⟨hidle, hp⟩
      | poisoning _ hnow =>
        have hphase := h.idle_or_parked hrests hhost
        rcases hnow with hnow | hnow <;>
          (rw [hnow] at hphase; rcases hphase with hphase | ⟨_, hphase⟩ <;> cases hphase)
    refine ⟨(BarrierRoom.isIdle_iff hhost).mpr hidle, fun thread hmem => ?_⟩
    obtain ⟨lane, hthread⟩ := List.getElem?_of_mem hmem
    rcases h.rest_cases hrests hthread with hover | hawaited | hparks
    · rw [hover]
      rfl
    · rw [hawaited, Bool.or_true]
    · exact absurd (hp.symm.trans hparks.quiet) nofun
  · rw [if_neg hsome, List.all_eq_true]
    have hstarted : ∀ {lane : Nat} {thread : Thread σ α β}, team.threads[lane]? = some thread →
        ¬ thread.isAwaited = true := h.not_isAwaited_of_rests (hrests .hosts) hsome
    intro thread hmem
    by_contra hnot
    obtain ⟨lane, hthread⟩ := List.getElem?_of_mem hmem
    -- a lane that is not over is parked
    obtain ⟨hquiet, ⟨caller, hcaller, hjoined⟩, hstands⟩ :=
      ((h.rest_cases hrests hthread).resolve_left hnot).resolve_left (hstarted hthread)
    have hcalm := h.calm_of_rests hrests hquiet
    -- not all lanes have joined, and one that has not has come to its end
    obtain ⟨other, hother, sibling, hsibling, hnotJoined⟩ :=
      h.attended.exists_not_hasJoined (Nat.zero_lt_of_lt (List.getElem?_eq_some_iff.mp hthread).1)
    obtain ⟨beside, hbeside⟩ : ∃ beside, team.threads[other]? = some beside := ⟨_, List.getElem?_eq_getElem hother⟩
    rcases h.rest_cases hrests hbeside with hover | hawaited | ⟨_, ⟨now, hnow, hjoined'⟩, _⟩
    · obtain ⟨now, station, hnow, _, hseat⟩ := h.exists_seat hbeside
      cases hseat with
      | dismissed _ _ _ hp => exact absurd (hp.symm.trans hquiet) nofun
      | unwound _ _ _ _ hp => exact absurd (hp.symm.trans hquiet) nofun
      | finished result _ hlength hrounds =>
        rcases hstands with ⟨_, _, hzero⟩ | ⟨next, rfl⟩
        · exact absurd hzero (Nat.ne_of_gt hrounds)
        · refine heven hcalm ⟨other, lane, result, next, hbeside, hthread, ?_⟩
          rw [waits, waits, hnow, hcaller, Option.map_some, Option.map_some, hlength, hjoined.length]
      | _ => cases hover
    · exact hstarted hbeside hawaited
    · obtain rfl := Option.some.inj (hsibling.symm.trans hnow)
      exact absurd (hjoined'.hasJoined.symm.trans hnotJoined) nofun

/-! ## The way there -/

variable {callbacks : Callbacks σ α} {spawner : Spawner} {block : Nat}

/-- **Every team can be brought to rest.** -/
theorem Mirrors.exists_standstill (h : Mirrors rounds team crew) (callbacks : Callbacks σ α) (spawner : Spawner)
    (block : Nat) (store : Store α) :
    ∃ (turns : List Turn) (rounds' : Nat) (crew' : Crew σ α β),
      Mirrors rounds' (team.run callbacks spawner block store turns).1 crew' ∧
        ∀ turn, (team.run callbacks spawner block store turns).1.Rests turn := by
  -- each turn brings the crew further, or leaves the team less to do of which the crew sees nothing
  induction crew using Crew.wellFounded_later.induction generalizing rounds team store with
  | _ crew ih =>
    induction hweight : team.weight using Nat.strongRecOn generalizing rounds team with
    | ind weight ihWeight =>
      by_cases hlive : ∃ turn, ¬ team.Rests turn
      · obtain ⟨turn, hturn⟩ := hlive
        have hechoes := h.echoes callbacks spawner block store turn
        generalize hafter : team.turn callbacks spawner block store turn = after at hechoes
        generalize team.deed? turn = deed at hechoes
        have hrun : ∀ turns, team.run callbacks spawner block store (turn :: turns) =
            after.1.run callbacks spawner block after.2 turns := by
          intro turns
          rw [← hafter]
          rfl
        cases hechoes with
        | rests hrests => exact absurd hrests hturn
        | silent rounds' hmirrors hlighter =>
          rcases hlighter with ⟨lane, rfl⟩ | hlighter
          · exact absurd trivial hturn
          · obtain ⟨turns, hstandstill⟩ := ihWeight _ (hweight ▸ hlighter) hmirrors rfl
            refine ⟨turn :: turns, ?_⟩
            rw [hrun]
            exact hstandstill
        | @heard _ crew' store' _ rounds' lane hlive hcrew hmirrors _ =>
          have hlater := (Crew.turn_spec callbacks crew lane store).later hlive
          rw [hcrew] at hlater
          obtain ⟨turns, hstandstill⟩ := ih crew' hlater hmirrors store'
          refine ⟨turn :: turns, ?_⟩
          rw [hrun]
          exact hstandstill
      · exact ⟨[], rounds, crew, h, fun turn => not_not.mp fun hturn => hlive ⟨turn, hturn⟩⟩

/-! ## The end of a team and of its crew -/

/-- When a team is over all of whose lanes were started, so is its crew. -/
theorem Mirrors.crew_isOver (h : Mirrors rounds team crew) (hover : team.isOver = true)
    (hstarted : team.refusal = none) : crew.isOver = true := by
  unfold isOver at hover
  rw [if_neg (by rw [hstarted]; exact Bool.false_ne_true), List.all_eq_true] at hover
  rw [Crew.isOver, List.all_eq_true]
  intro station hmem
  obtain ⟨lane, hstation⟩ := List.getElem?_of_mem hmem
  obtain ⟨thread, hthread⟩ : ∃ thread, team.threads[lane]? = some thread :=
    ⟨_, List.getElem?_eq_getElem (by rw [← h.length]; exact (List.getElem?_eq_some_iff.mp hstation).1)⟩
  have hthreadOver := hover thread (List.mem_of_getElem? hthread)
  obtain ⟨_, place, _, hplace, hseat⟩ := h.exists_seat hthread
  obtain rfl := Option.some.inj (hstation.symm.trans hplace)
  cases hseat with
  | finished _ _ _ _ => rfl
  | unwound _ _ _ _ _ => rfl
  | dismissed _ _ hrounds hp =>
    -- nobody has turned it away
    rcases h.poisoned hp with hsome | hcrew
    · rw [hstarted] at hsome
      cases hsome
    · obtain ⟨_, _, hsibling, hpanic⟩ := h.source hcrew
      exact absurd hrounds (Nat.ne_of_gt (h.rounds_pos_of_panic hsibling hpanic))
  | _ => cases hthreadOver

/-- Who has unwound in the crew has unwound in a team that is over, and with the same panic. -/
theorem Mirrors.thread_of_unwound (h : Mirrors rounds team crew) (hover : team.isOver = true)
    (hstarted : team.refusal = none) {panic : Panic} (hstation : crew.stations[lane]? = some (.unwound panic)) :
    team.threads[lane]? = some (.unwound panic) := by
  unfold isOver at hover
  rw [if_neg (by rw [hstarted]; exact Bool.false_ne_true), List.all_eq_true] at hover
  obtain ⟨thread, hthread⟩ : ∃ thread, team.threads[lane]? = some thread :=
    ⟨_, List.getElem?_eq_getElem (by rw [← h.length]; exact (List.getElem?_eq_some_iff.mp hstation).1)⟩
  have hthreadOver := hover thread (List.mem_of_getElem? hthread)
  obtain ⟨_, place, _, hplace, hseat⟩ := h.exists_seat hthread
  obtain rfl := Option.some.inj (hstation.symm.trans hplace)
  cases hseat with
  | unwound _ _ _ _ _ => exact hthread
  | turnedAway _ _ _ _ => cases hthreadOver
  | poisoning _ _ _ _ => cases hthreadOver
  | reporting _ _ _ _ _ => cases hthreadOver

/-- Who has unwound in the team has unwound in the crew. -/
theorem Mirrors.station_of_unwound (h : Mirrors rounds team crew) {panic : Panic}
    (hthread : team.threads[lane]? = some (.unwound panic)) : crew.stations[lane]? = some (.unwound panic) := by
  obtain ⟨_, station, _, hstation, hseat⟩ := h.exists_seat hthread
  cases hseat with
  | unwound _ _ _ _ _ => exact hstation

/-- Who has finished in the crew has finished in the team. -/
theorem Mirrors.thread_of_finished (h : Mirrors rounds team crew) {result : β}
    (hstation : crew.stations[lane]? = some (.finished result)) : team.threads[lane]? = some (.finished result) := by
  obtain ⟨thread, hthread⟩ : ∃ thread, team.threads[lane]? = some thread :=
    ⟨_, List.getElem?_eq_getElem (by rw [← h.length]; exact (List.getElem?_eq_some_iff.mp hstation).1)⟩
  obtain ⟨_, place, _, hplace, hseat⟩ := h.exists_seat hthread
  obtain rfl := Option.some.inj (hstation.symm.trans hplace)
  cases hseat with
  | finished _ _ _ _ => exact hthread

/-- Who has told a panic had begun, so the host has started all lanes. -/
theorem Mirrors.refusal_eq_none_of_fault (h : Mirrors rounds team crew) {panic : Panic}
    (hfault : team.fault = some panic) : team.refusal = none := by
  obtain ⟨_, _, hthread⟩ := h.kept.fault panic hfault
  exact h.refusal_eq_none (h.rounds_pos_of_panic hthread rfl)

/-! ## Beginnings and ends -/

/-- A block about to begin. -/
theorem mirrors_start (slots : Array σ) (lanes : List (Lane σ α β)) :
    Mirrors 0 (start slots lanes) (Crew.start slots lanes) := by
  have hthreads : ∀ (lane : Nat) (thread : Thread σ α β), (start slots lanes).threads[lane]? = some thread →
      ∃ program, lanes[lane]? = some program ∧ thread = .awaited program := by
    intro lane thread hthread
    obtain ⟨program, hprogram, rfl⟩ := Option.map_eq_some_iff.mp ((List.getElem?_map ..).symm.trans hthread)
    exact ⟨program, hprogram, rfl⟩
  have hlength : (start slots lanes).threads.length = lanes.length := List.length_map ..
  refine ⟨⟨fun lane thread hthread => ?_, nofun, nofun, fun lane panic hthread _ => ?_⟩, ?_, ?_, rfl,
    fun lane thread caller station hthread hcaller hstation => ?_, fun caller hcaller => ?_, nofun, nofun⟩
  · obtain ⟨program, _, rfl⟩ := hthreads lane thread hthread
    exact ⟨fun _ => Nat.zero_le lane, fun _ => rfl⟩
  · obtain ⟨program, _, he⟩ := hthreads lane _ hthread
    cases he
  · rw [hlength]
    exact .gather lanes.length
  · exact (List.length_map ..).trans hlength.symm
  · obtain ⟨program, hprogram, rfl⟩ := hthreads lane thread hthread
    obtain rfl := List.eq_of_mem_replicate (List.mem_of_getElem? hcaller)
    obtain ⟨program', hprogram', rfl⟩ := Option.map_eq_some_iff.mp ((List.getElem?_map ..).symm.trans hstation)
    obtain rfl := Option.some.inj (hprogram.symm.trans hprogram')
    exact .awaited program rfl rfl rfl
  · obtain rfl := List.eq_of_mem_replicate (List.mem_of_getElem? hcaller)
    exact .starting rfl rfl

/-- The first panic that is told stays. -/
theorem fault_turn {panic : Panic} (hfault : team.fault = some panic) (callbacks : Callbacks σ α)
    (spawner : Spawner) (block : Nat) (store : Store α) (turn : Turn) :
    (team.turn callbacks spawner block store turn).1.fault = some panic := by
  have hback : ∀ {lane : Nat} {opened : Thread σ α β} {poisoned : Team σ α β → Team σ α β},
      (∀ team : Team σ α β, (poisoned team).fault = team.fault) →
        (team.back lane opened poisoned).fault = some panic := by
    intro lane opened poisoned hpoisoned
    unfold back
    split
    · exact hfault
    · exact (hpoisoned _).trans hfault
    · exact hfault
  cases turn with
  | wakes lane => exact hfault
  | hosts =>
    show (team.hosted spawner block).fault = some panic
    unfold hosted
    split
    · exact hfault
    · split
      · split <;> exact hfault
      · exact hfault
  | steps lane =>
    show (team.advanced callbacks lane store).1.fault = some panic
    unfold advanced
    split
    · exact hback fun _ => rfl
    · exact hfault
    · exact hfault
    · exact hfault
    · unfold answered
      split <;> exact hfault
    · exact hback fun _ => rfl
    · split <;> exact hfault
    · show (team.fault <|> _) = some panic
      rw [hfault]
      rfl
    · exact hfault

/-- Only a host that cannot start a lane has a reason why. -/
theorem refusal_turn {cause : String} (callbacks : Callbacks σ α) (spawner : Spawner) (block : Nat)
    (store : Store α) (turn : Turn)
    (hrefusal : (team.turn callbacks spawner block store turn).1.refusal = some cause) :
    team.refusal = some cause ∨ ∃ lane, spawner.refuses block lane = some cause := by
  have hback : ∀ {lane : Nat} {opened : Thread σ α β} {poisoned : Team σ α β → Team σ α β},
      (∀ team : Team σ α β, (poisoned team).refusal = team.refusal) →
        (team.back lane opened poisoned).refusal = team.refusal := by
    intro lane opened poisoned hpoisoned
    unfold back
    split
    · rfl
    · exact hpoisoned _
    · rfl
  cases turn with
  | wakes lane => exact .inl hrefusal
  | hosts =>
    change (team.hosted spawner block).refusal = some cause at hrefusal
    unfold hosted at hrefusal
    split at hrefusal
    · exact .inl hrefusal
    · split at hrefusal
      · split at hrefusal
        · exact .inl hrefusal
        · obtain rfl := Option.some.inj hrefusal
          exact .inr ⟨team.started, ‹_›⟩
      · exact .inl hrefusal
  | steps lane =>
    refine .inl (Eq.trans (Eq.symm ?_) hrefusal)
    show (team.advanced callbacks lane store).1.refusal = team.refusal
    unfold advanced
    split
    · exact hback fun _ => rfl
    · rfl
    · rfl
    · rfl
    · unfold answered
      split <;> rfl
    · exact hback fun _ => rfl
    · split <;> rfl
    · rfl
    · rfl

/-- A block that has not failed was started as a whole, and none of its lanes has told a panic. -/
theorem eq_none_of_failure? (h : team.failure? block = none) : team.refusal = none ∧ team.fault = none := by
  unfold failure? at h
  cases hrefusal : team.refusal with
  | some cause =>
    rw [hrefusal] at h
    cases h
  | none =>
    cases hfault : team.fault with
    | none => exact ⟨rfl, rfl⟩
    | some panic =>
      rw [hrefusal, hfault] at h
      cases h

/-- A block that was started as a whole fails if a lane has told a panic. -/
theorem failure?_eq_none (hstarted : team.refusal = none) : team.failure? block = none ↔ team.fault = none := by
  unfold failure?
  rw [hstarted]
  cases team.fault with
  | none => exact ⟨fun _ => rfl, fun _ => rfl⟩
  | some _ => exact ⟨nofun, nofun⟩

/-- A team that has ended well stays so. -/
theorem isOver_turn (hover : team.isOver = true) (hwell : team.failure? block = none) (callbacks : Callbacks σ α)
    (spawner : Spawner) (store : Store α) (turn : Turn) :
    (team.turn callbacks spawner block store turn).1.isOver = true ∧
      (team.turn callbacks spawner block store turn).1.failure? block = none := by
  have hnone : team.refusal = none := (eq_none_of_failure? hwell).1
  have hthreads : ∀ (lane : Nat) (thread : Thread σ α β), team.threads[lane]? = some thread →
      thread.isOver = true := by
    intro lane thread hthread
    unfold isOver at hover
    rw [hnone] at hover
    exact List.all_eq_true.mp hover thread (List.mem_of_getElem? hthread)
  cases turn with
  | hosts =>
    have hsame : team.hosted spawner block = team := by
      unfold hosted
      rw [hnone, if_neg (by exact Bool.false_ne_true)]
      cases hthread : team.threads[team.started]? with
      | none => rfl
      | some thread =>
        have hthreadOver := hthreads _ thread hthread
        cases thread with
        | awaited _ => cases hthreadOver
        | _ => rfl
    show (team.hosted spawner block).isOver = true ∧ (team.hosted spawner block).failure? block = none
    rw [hsame]
    exact ⟨hover, hwell⟩
  | wakes lane =>
    refine ⟨?_, hwell⟩
    unfold isOver at hover ⊢
    show (if team.refusal.isSome then _ else team.threads.all Thread.isOver) = true
    rw [hnone] at hover ⊢
    exact hover
  | steps lane =>
    have hsame : team.advanced callbacks lane store = (team, store) := by
      unfold advanced
      cases hthread : team.threads[lane]? with
      | none => rfl
      | some thread =>
        have hthreadOver := hthreads _ thread hthread
        cases thread with
        | dismissed => rfl
        | finished _ => rfl
        | unwound _ => rfl
        | _ => cases hthreadOver
    show (team.advanced callbacks lane store).1.isOver = true ∧
      (team.advanced callbacks lane store).1.failure? block = none
    rw [hsame]
    exact ⟨hover, hwell⟩

end Team

end BlockMachine
