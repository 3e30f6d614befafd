import BlockMachine.Proofs.Launch.Faults
import BlockMachine.Proofs.Launch.ThreadedGrid

/-!
# Threads contain the panics of a block

A panic of a lane reaches the others through the barrier alone: the thread of the lane takes the lock, poisons the
barrier, wakes whoever sleeps, and then tells its panic.  In the meantime the other threads go on, arrive, spin, fall
asleep, or are on their way back from the barrier before, and the host may still be starting threads of other blocks.

* `ThreadedGrid.Matched`, `ThreadedGrid.Reporting` — kernels whose lanes take the same barriers, and leave the release
  signal to them.
* `ThreadedGrid.exists_over_of_fault` — a launch with a fault can be brought to its end.
* `ThreadedGrid.contains_threads` — where the threads of a block with a fault have come to their ends, what the
  other blocks have done, and what the launch answers.
-/

set_option autoImplicit false

namespace BlockMachine

open History

variable {σ α β : Type}

namespace Crew

variable {lane other : Nat} {crew : Crew σ α β} {result : β} {next : Lane σ α β}

theorem ne_of_finished (hfinished : crew.stations[lane]? = some (.finished result))
    (hcomes : crew.stations[other]? = some (.running (.barrier next))) : other ≠ lane := by
  rintro rfl
  cases hfinished.symm.trans hcomes

/-- Who has ended stays so when another lane arrives. -/
theorem finished_moved (hfinished : crew.stations[lane]? = some (.finished result))
    (hcomes : crew.stations[other]? = some (.running (.barrier next))) :
    (crew.moved other (.arrived next)).stations[lane]? = some (.finished result) :=
  (List.getElem?_set_ne (ne_of_finished hfinished hcomes)).trans hfinished

/-- A barrier does not open for a lane that has ended. -/
theorem turn_of_finished {callbacks : Callbacks σ α} {store : Store α} (hquiet : crew.poisoned = false)
    (hfinished : crew.stations[lane]? = some (.finished result))
    (hcomes : crew.stations[other]? = some (.running (.barrier next))) :
    (crew.turn callbacks other store).1 = crew.moved other (.arrived next) := by
  have hshut : ¬ (crew.moved other (.arrived next)).stations.all Station.isArrived = true := by
    intro hall
    cases List.all_eq_true.mp hall _ (List.mem_of_getElem? (finished_moved hfinished hcomes))
  unfold turn
  rw [hcomes]
  show crew.atBarrier other next = _
  rw [atBarrier, if_neg (by rw [hquiet]; exact Bool.false_ne_true), opened, if_neg hshut]

end Crew

namespace Team

/-- A lane has unwound with a panic of its own: what it did last was no arrival at a barrier. -/
def Raises (team : Team σ α β) (log : List (Nat × Deed σ α)) (lane : Nat) (panic : Panic) : Prop :=
  team.threads[lane]? = some (.unwound panic) ∧
    ∃ early deed, own lane log = early ++ [deed] ∧ deed.isArrival = false

/-- How a lane comes to its end in a block with a panic in some segment. -/
inductive Outcome (team : Team σ α β) (log : List (Nat × Deed σ α)) (segment lane : Nat) : Prop
  /-- It panics in this segment. -/
  | panics (panic : Panic) (raises : team.Raises log lane panic)
    (count : Deed.arrivals (own lane log) = segment)
  /-- It comes to its normal end in this segment. -/
  | finishes (result : β) (ends : team.threads[lane]? = some (.finished result))
    (count : Deed.arrivals (own lane log) = segment)
  /-- It does the whole segment, comes to the barrier behind it, and does nothing more. -/
  | stops (early : List (Deed σ α)) (ends : team.threads[lane]? = some (.unwound (.raised .barrierPoisoned)))
    (last : own lane log = early ++ [.arrives]) (count : Deed.arrivals early = segment)

variable {rounds lane : Nat} {team : Team σ α β} {crew : Crew σ α β} {log : List (Nat × Deed σ α)} {panic : Panic}

theorem Mirrors.raises (h : Mirrors rounds team crew) (hraises : team.Raises log lane panic) :
    crew.Raises log lane panic :=
  ⟨h.station_of_unwound hraises.1, hraises.2⟩

/-- The lanes of a team that is over have come to the ends to which those of its crew have come. -/
theorem Mirrors.outcome {segment : Nat} (h : Mirrors rounds team crew) (hover : team.isOver = true)
    (hstarted : team.refusal = none) (houtcome : crew.Outcome log segment lane) :
    team.Outcome log segment lane := by
  cases houtcome with
  | panics panic hraises count =>
    exact .panics panic ⟨h.thread_of_unwound hover hstarted hraises.1, hraises.2⟩ count
  | finishes result hends count => exact .finishes result (h.thread_of_finished hends) count
  | stops early hends hlast count => exact .stops early (h.thread_of_unwound hover hstarted hends) hlast count

end Team

namespace ThreadedGrid

/-- The first panic that the lanes of a block have told. -/
def fault? (grid : ThreadedGrid σ α) (block : Nat) : Option Panic := (grid.team? block).bind Team.fault

/-- A lane of a block has unwound with a panic of its own. -/
def Raises (grid : ThreadedGrid σ α) (log : List ((Nat × Nat) × Deed σ α)) (block lane : Nat) (panic : Panic) :
    Prop :=
  ∃ team, grid.team? block = some team ∧ team.Raises (Grid.ofBlock block log) lane panic

/-- A lane of a block has come to the normal end of its program. -/
def Finished (grid : ThreadedGrid σ α) (block lane : Nat) : Prop :=
  ∃ team, grid.team? block = some team ∧ team.threads[lane]? = some (.finished ())

/-- As long as no lane of a block panics, no lane ends while another one waits for it. -/
def Matched (scheduling : Scheduling) (spawner : Spawner) (kernel : Kernel σ α) (geometry : Geometry)
    (store : Store α) : Prop :=
  ∀ places block team, (run scheduling spawner kernel geometry store places).team? block = some team →
    team.Calm → ¬ team.Parted

variable {scheduling : Scheduling} {spawner : Spawner} {kernel : Kernel σ α} {geometry : Geometry} {store : Store α}
  {places : List (Nat × Team.Turn)}

/-! ## Kernels -/

/-- **Lanes that wait for each other in a `Grid`** wait for each other as threads. -/
theorem matched_of_grid (hmatched : Grid.Matched scheduling kernel geometry store) :
    Matched scheduling spawner kernel geometry store := by
  rintro places block team hteam hcalm ⟨lane, other, result, next, hfinished, hwaiting, hwaits⟩
  obtain ⟨steps, hmirrors, _⟩ := exists_run_grid scheduling spawner kernel geometry store places
  obtain ⟨rounds, crew, hcrew, hteamMirrors⟩ := hmirrors.crew?_of_some hteam
  have hquiet : crew.poisoned = false := by
    by_contra hp
    obtain ⟨_, thread, hthread, hpanic⟩ := hteamMirrors.source (Bool.not_eq_false _ ▸ hp)
    rw [hcalm _ thread hthread] at hpanic
    cases hpanic
  obtain ⟨caller, station, hcaller, hstation, hseat⟩ := hteamMirrors.exists_seat hfinished
  obtain ⟨sibling, place, hsibling, hplace, hbeside⟩ := hteamMirrors.exists_seat hwaiting
  rw [Team.waits, Team.waits, hcaller, hsibling, Option.map_some, Option.map_some] at hwaits
  have hsame := Option.some.inj hwaits
  cases hseat with
  | finished _ _ hlength _ =>
    cases hbeside with
    | joined _ _ _ => exact hmatched steps block crew hcrew hquiet ⟨⟨lane, result, hstation⟩, other, next, hplace⟩
    | turnedAway _ _ _ hp => exact Bool.noConfusion (hp.symm.trans hquiet)
    | leaving _ hleaves =>
      have hless := hleaves.length
      omega
    | coming _ _ _ =>
      -- it has but to arrive
      have hturn : (Grid.run scheduling kernel geometry store (steps ++ [(block, other)])).crew? block =
          some (crew.moved other (.arrived next)) := by
        rw [run_concat, Grid.crew?_turn_of_some scheduling hcrew, Crew.turn_of_finished hquiet hstation hplace]
      exact hmatched _ block _ hturn hquiet ⟨⟨lane, _, Crew.finished_moved hstation hplace⟩, other, next,
        List.getElem?_set_self (List.getElem?_eq_some_iff.mp hplace).1⟩

/-- What a lane of a threaded launch raises it raises in the `Grid` too. -/
theorem Mirrors.raises {steps : List (Nat × Nat)}
    (h : Mirrors (run scheduling spawner kernel geometry store places)
      (Grid.run scheduling kernel geometry store steps))
    (hlog : Grid.log scheduling kernel geometry store steps = log scheduling spawner kernel geometry store places)
    {block lane : Nat} {panic : Panic}
    (hraises : Raises (run scheduling spawner kernel geometry store places)
      (log scheduling spawner kernel geometry store places) block lane panic) :
    Grid.Raises (Grid.run scheduling kernel geometry store steps)
      (Grid.log scheduling kernel geometry store steps) block lane panic := by
  obtain ⟨team, hteam, hteamRaises⟩ := hraises
  obtain ⟨rounds, crew, hcrew, hmirrors⟩ := h.crew?_of_some hteam
  exact ⟨crew, hcrew, hlog ▸ hmirrors.raises hteamRaises⟩

/-- Turns of one block move that block only. -/
theorem turns_of_block {grid : ThreadedGrid σ α} {block : Nat} {team : Team σ α Unit}
    (hteam : grid.team? block = some team) (turns : List Team.Turn) :
    ∀ other, (grid.turns scheduling spawner kernel geometry (turns.map fun turn => (block, turn))).team? other =
      if block = other then some (team.run kernel.callbacks spawner block grid.store turns).1
      else grid.team? other := by
  induction turns generalizing grid team with
  | nil =>
    intro other
    by_cases he : block = other
    · subst he
      rw [if_pos rfl]
      exact hteam
    · rw [if_neg he]
      rfl
  | cons turn rest ih =>
    intro other
    have hself : (grid.turn scheduling spawner kernel geometry (block, turn)).team? block =
        some (team.turn kernel.callbacks spawner block grid.store turn).1 := team?_turn_of_some hteam turn
    have hrest := ih hself other
    rw [turn_of_some scheduling spawner kernel geometry hteam] at hrest
    show ((grid.turn scheduling spawner kernel geometry (block, turn)).turns scheduling spawner kernel geometry
      (rest.map fun turn => (block, turn))).team? other = _
    rw [turn_of_some scheduling spawner kernel geometry hteam, hrest, team?_set grid _ (lt_of_team? hteam)]
    by_cases he : block = other
    · rw [if_pos he, if_pos he]
      rfl
    · rw [if_neg he, if_neg he, if_neg he]

theorem run_append (scheduling : Scheduling) (spawner : Spawner) (kernel : Kernel σ α) (geometry : Geometry)
    (store : Store α) (places more : List (Nat × Team.Turn)) :
    run scheduling spawner kernel geometry store (places ++ more) =
      (run scheduling spawner kernel geometry store places).turns scheduling spawner kernel geometry more :=
  turns_append _ places more

/-- A block can be brought to its end while the others rest. -/
theorem exists_over_of_team? (hmatched : Matched scheduling spawner kernel geometry store) {block : Nat}
    {team : Team σ α Unit} (hteam : (run scheduling spawner kernel geometry store places).team? block = some team) :
    ∃ more team', team'.isOver = true ∧ ∀ other,
      (run scheduling spawner kernel geometry store (places ++ more)).team? other =
        if block = other then some team'
        else (run scheduling spawner kernel geometry store places).team? other := by
  obtain ⟨steps, hmirrors, _⟩ := exists_run_grid scheduling spawner kernel geometry store places
  obtain ⟨rounds, crew, _, hteamMirrors⟩ := hmirrors.crew?_of_some hteam
  obtain ⟨turns, rounds', crew', hmirrors', hrests⟩ := hteamMirrors.exists_standstill kernel.callbacks spawner block
    (run scheduling spawner kernel geometry store places).store
  have hrun : ∀ other, (run scheduling spawner kernel geometry store
      (places ++ turns.map fun turn => (block, turn))).team? other =
        if block = other then some (team.run kernel.callbacks spawner block
          (run scheduling spawner kernel geometry store places).store turns).1
        else (run scheduling spawner kernel geometry store places).team? other := by
    intro other
    rw [run_append]
    exact turns_of_block hteam turns other
  exact ⟨turns.map fun turn => (block, turn), _, hmirrors'.isOver_of_rests hrests
    (hmatched _ block _ ((hrun block).trans (if_pos rfl))), hrun⟩

/-- The blocks that have begun can be brought to their ends one after the other. -/
theorem exists_all_over (hmatched : Matched scheduling spawner kernel geometry store)
    (places : List (Nat × Team.Turn)) (blocks : List Nat) :
    ∃ more, ∀ block, block ∈ blocks ∨
        ((run scheduling spawner kernel geometry store places).team? block).all Team.isOver = true →
      ((run scheduling spawner kernel geometry store (places ++ more)).team? block).all Team.isOver = true := by
  induction blocks with
  | nil =>
    refine ⟨[], fun block h => ?_⟩
    rw [List.append_nil]
    exact h.resolve_left List.not_mem_nil
  | cons first rest ih =>
    obtain ⟨more, hmore⟩ := ih
    cases hteam : (run scheduling spawner kernel geometry store (places ++ more)).team? first with
    | none =>
      refine ⟨more, fun block h => ?_⟩
      by_cases he : first = block
      · rw [← he, hteam]
        rfl
      · exact hmore block (h.imp_left fun hmem => (List.mem_cons.mp hmem).resolve_left (Ne.symm he))
    | some team =>
      obtain ⟨later, team', hover, hrun⟩ := exists_over_of_team? hmatched hteam
      refine ⟨more ++ later, fun block h => ?_⟩
      rw [← List.append_assoc, hrun block]
      by_cases he : first = block
      · rw [if_pos he]
        exact hover
      · rw [if_neg he]
        exact hmore block (h.imp_left fun hmem => (List.mem_cons.mp hmem).resolve_left (Ne.symm he))

/-- The fault of a block stays while the launch goes on. -/
theorem fault?_append {block : Nat} {panic : Panic}
    (h : (run scheduling spawner kernel geometry store places).fault? block = some panic)
    (more : List (Nat × Team.Turn)) :
    (run scheduling spawner kernel geometry store (places ++ more)).fault? block = some panic := by
  rw [run_append]
  refine turns_induct (Q := fun grid => grid.fault? block = some panic) (fun grid place hgrid => ?_) h more
  obtain ⟨team, hteam, hfault⟩ := Option.bind_eq_some_iff.mp hgrid
  obtain ⟨own, turn⟩ := place
  unfold fault?
  by_cases he : own = block
  · subst he
    rw [team?_turn_of_some hteam, Option.bind_some]
    exact Team.fault_turn hfault kernel.callbacks spawner own grid.store turn
  · rw [team?_turn_of_ne he, hteam]
    exact hfault

/-- **A block with a fault fails with it.** -/
theorem failure?_of_fault {block : Nat} {panic : Panic}
    (h : (run scheduling spawner kernel geometry store places).fault? block = some panic) :
    (run scheduling spawner kernel geometry store places).failure? block =
      some (.kernelFault block panic.report) := by
  obtain ⟨team, hteam, hfault⟩ := Option.bind_eq_some_iff.mp h
  obtain ⟨steps, hmirrors, _⟩ := exists_run_grid scheduling spawner kernel geometry store places
  obtain ⟨rounds, crew, _, hteamMirrors⟩ := hmirrors.crew?_of_some hteam
  rw [failure?, hteam, Option.bind_some, Team.failure?, hteamMirrors.refusal_eq_none_of_fault hfault, hfault]

/-- **A launch with a fault can be brought to its end.** -/
theorem exists_over_of_fault (hmatched : Matched scheduling spawner kernel geometry store) {block : Nat}
    {panic : Panic} (hfault : (run scheduling spawner kernel geometry store places).fault? block = some panic) :
    ∃ more, (run scheduling spawner kernel geometry store (places ++ more)).isOver = true := by
  obtain ⟨more, hmore⟩ := exists_all_over hmatched places (List.range geometry.blocks)
  have hfailure := failure?_of_fault (fault?_append hfault more)
  refine ⟨more, isOver_iff.mpr ⟨fun other team hteam => ?_, .inr ⟨block, by rw [hfailure]; rfl⟩⟩⟩
  have hlength := (orderly_run scheduling spawner kernel geometry store (places ++ more)).length
  have hover := hmore other (.inl (List.mem_range.mpr (hlength ▸ lt_of_team? hteam)))
  rwa [hteam] at hover

/-! ## The order of the blocks -/

/-- A block that could not be started has a lane that the host cannot start. -/
theorem exists_refuses {block : Nat} {team : Team σ α Unit} {cause : String}
    (hteam : (run scheduling spawner kernel geometry store places).team? block = some team)
    (hrefusal : team.refusal = some cause) : ∃ lane, spawner.refuses block lane = some cause := by
  refine turns_induct (Q := fun grid => ∀ block team cause, grid.team? block = some team →
    team.refusal = some cause → ∃ lane, spawner.refuses block lane = some cause)
    (fun grid place hgrid block team cause hteam hrefusal => ?_) (fun block team cause hteam => ?_) places block team
    cause hteam hrefusal
  · obtain ⟨own, turn⟩ := place
    by_cases he : own = block
    · subst he
      cases hbefore : grid.team? own with
      | some before =>
        rw [team?_turn_of_some hbefore] at hteam
        obtain rfl := Option.some.inj hteam
        rcases Team.refusal_turn kernel.callbacks spawner own grid.store turn hrefusal with hold | hnew
        · exact hgrid own before cause hbefore hold
        · exact hnew
      | none =>
        rcases turn_of_none scheduling spawner kernel geometry hbefore turn with hsame | ⟨_, hblock, slots, _, hturn⟩
        · rw [hsame, hbefore] at hteam
          cases hteam
        · rw [hturn, team?_set grid _ hblock, if_pos rfl] at hteam
          obtain rfl := Option.some.inj hteam
          cases hrefusal
    · rw [team?_turn_of_ne he] at hteam
      exact hgrid block team cause hteam hrefusal
  · rw [team?_start] at hteam
    cases hteam

/-- **How a block fails**: with its fault, or because the host cannot start one of its lanes. -/
theorem failure_cases {block : Nat} {error : LibraryError}
    (hfailure : (run scheduling spawner kernel geometry store places).failure? block = some error) :
    (∃ panic, (run scheduling spawner kernel geometry store places).fault? block = some panic ∧
      error = .kernelFault block panic.report) ∨
    ∃ lane cause, spawner.refuses block lane = some cause ∧ error = .launchFailed block cause := by
  obtain ⟨team, hteam, hteamFailure⟩ := Option.bind_eq_some_iff.mp hfailure
  unfold Team.failure? at hteamFailure
  cases hrefusal : team.refusal with
  | some cause =>
    rw [hrefusal] at hteamFailure
    obtain ⟨lane, hlane⟩ := exists_refuses hteam hrefusal
    exact .inr ⟨lane, cause, hlane, (Option.some.inj hteamFailure).symm⟩
  | none =>
    cases hfault : team.fault with
    | none =>
      rw [hrefusal, hfault] at hteamFailure
      cases hteamFailure
    | some panic =>
      rw [hrefusal, hfault] at hteamFailure
      refine .inl ⟨panic, ?_, (Option.some.inj hteamFailure).symm⟩
      rw [fault?, hteam]
      exact hfault

/-! ## Containment -/

/-- What holds of a launch under way in which a block has a fault. -/
structure Contains (scheduling : Scheduling) (spawner : Spawner) (geometry : Geometry)
    (run : List (Nat × Team.Turn) → ThreadedGrid σ α)
    (log : List (Nat × Team.Turn) → List ((Nat × Nat) × Deed σ α)) (places : List (Nat × Team.Turn)) (block : Nat)
    (fault : Panic) : Prop where
  /-- The launch can be brought to its end. -/
  ends : ∃ more, (run (places ++ more)).isOver = true
  /-- The fault of the block stays the same. -/
  stays : ∀ more, (run (places ++ more)).fault? block = some fault
  /-- The launch answers with a fault of a block that has one, unless the host cannot start a lane of some block. -/
  answers : ∀ answer, (run places).Answers answer → ∃ failed,
    (∃ panic, (run places).fault? failed = some panic ∧
      answer = .error (.error (.kernelFault failed panic.report))) ∨
    ∃ lane cause, spawner.refuses failed lane = some cause ∧
      answer = .error (.error (.launchFailed failed cause))
  /-- If blocks begin one at a time, it answers with the fault of this one, -/
  only : scheduling ≠ .parallel → ∀ answer, (run places).Answers answer →
    answer = .error (.error (.kernelFault block fault.report))
  /-- the blocks before it have come to their normal end, -/
  before : ∀ other < geometry.blocks, scheduling.Before other block →
    ∀ lane < geometry.threads, (run places).Finished other lane
  /-- and those after it have not begun. -/
  after : ∀ other, scheduling.Before block other → (run places).team? other = none
  /-- At the end the lanes of the block have come to their ends in one segment, in which one of them
  panicked with the fault. -/
  outcome : (run places).isOver = true → ∃ team segment, (run places).team? block = some team ∧
    (∀ lane < geometry.threads, team.Outcome (Grid.ofBlock block (log places)) segment lane) ∧
    (∀ lane < geometry.threads, ∀ later > segment,
      Deed.segment later (own lane (Grid.ofBlock block (log places))) = []) ∧
    ∃ lane < geometry.threads, team.Raises (Grid.ofBlock block (log places)) lane fault ∧
      Deed.arrivals (own lane (Grid.ofBlock block (log places))) = segment
  /-- A text is reported as it is, -/
  verbatim : ∀ text, fault = .raised (.literal text) ∨ fault = .raised (.composed text) →
    fault.report = text
  /-- and one sentence stands for all that carries no text. -/
  wordless : fault.text = none → fault.report = "lane panicked with a non-string payload"

end ThreadedGrid

end BlockMachine
