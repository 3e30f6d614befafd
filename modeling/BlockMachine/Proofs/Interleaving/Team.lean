import BlockMachine.Interleaving.Team
import BlockMachine.Proofs.Barrier.Rounds
import BlockMachine.Proofs.Interleaving.Standstill
import Mathlib.Algebra.Order.BigOperators.Group.Finset

/-!
# Crews mirror teams

Each turn of a team is a turn of a crew or nothing that a crew could see.

* `Team.Seat` — the station of a lane in a crew, by its thread and its caller in a team.
* `Team.Mirrors` — a crew that stands where a team stands.

The two do not poison their block at the same time.  The crew does so in the turn in which a lane panics, the team
when the thread of that lane has got the lock.  In between other lanes of the team still arrive and wait, where those
of the crew are turned away at once; but since one lane is missing, none of them gets any further.
-/

set_option autoImplicit false

namespace BlockMachine

variable {σ α β : Type}

/-! ## Reading a room -/

namespace BarrierRoom

variable {room : BarrierRoom} {index : Nat} {caller : Caller}

theorem answer?_eq_none (hcaller : room.callers[index]? = some caller) (hbusy : caller.phase ≠ .idle) :
    room.answer? index = none := by
  obtain ⟨phase, results⟩ := caller
  unfold answer?
  rw [hcaller]
  cases phase with
  | idle => exact absurd rfl hbusy
  | _ => rfl

theorem answer?_eq_some {result : WaitResult}
    (hcaller : room.callers[index]? = some (caller.returned result)) : room.answer? index = some result := by
  unfold answer?
  rw [hcaller]
  rfl

theorem step_of_idle (hcaller : room.callers[index]? = some caller) (hidle : caller.phase = .idle) :
    room.step index = room := by
  simp only [step, hcaller, hidle]

theorem call_barrier {phase : Phase} : (room.call index phase).barrier = room.barrier := by
  unfold call
  split <;> rfl

theorem isIdle_iff (hcaller : room.callers[index]? = some caller) :
    room.isIdle index = true ↔ caller.phase = .idle := by
  obtain ⟨phase, results⟩ := caller
  unfold isIdle
  rw [hcaller]
  cases phase <;> simp

end BarrierRoom

theorem Caller.Waits.ne_idle {rounds : Nat} {caller : Caller} (h : caller.Waits rounds) : caller.phase ≠ .idle := by
  intro hidle
  cases h with
  | comes h => exact absurd (hidle.symm.trans h.phase) nofun
  | joined h =>
    have hgeneration := h.generation
    rw [hidle] at hgeneration
    cases hgeneration
  | leaves h =>
    rcases h.stands with hopening | hgeneration
    · exact absurd (hidle.symm.trans hopening) nofun
    · rw [hidle] at hgeneration
      cases hgeneration

theorem Caller.Joined.ne_arriving {rounds : Nat} {caller : Caller} (h : caller.Joined rounds) :
    caller.phase ≠ .arriving := by
  intro harriving
  have hgeneration := h.generation
  rw [harriving] at hgeneration
  cases hgeneration

theorem Caller.Leaves.ne_arriving {rounds : Nat} {caller : Caller} (h : caller.Leaves rounds) :
    caller.phase ≠ .arriving := by
  intro harriving
  rcases h.stands with hopening | hgeneration
  · exact absurd (harriving.symm.trans hopening) nofun
  · rw [harriving] at hgeneration
    cases hgeneration

/-- Who has joined a round has not left it. -/
theorem Caller.Joined.not_leaves {rounds : Nat} {caller : Caller} (h : caller.Joined rounds)
    (hleaves : caller.Leaves rounds) : False := by
  have hsame := h.hasJoined.symm.trans hleaves.hasJoined
  cases hsame

theorem Caller.returned_ne_arriving (caller : Caller) (result : WaitResult) :
    (caller.returned result).phase ≠ .arriving := by
  intro harriving
  cases harriving

namespace Team

/-! ## The relation -/

/-- Where a lane of a team stands, its caller at the barrier, and the station of the same lane in a crew. -/
inductive Seat (rounds : Nat) (crewPoisoned roomPoisoned : Bool) :
    Thread σ α β → Caller → Station σ α β → Prop
  | awaited (program : Lane σ α β) {caller : Caller} (hidle : caller.phase = .idle)
    (hresults : caller.results = []) (hrounds : rounds = 0) :
    Seat rounds crewPoisoned roomPoisoned (.awaited program) caller (.running program)
  | mustering (program : Lane σ α β) {caller : Caller} (hwaits : caller.Waits rounds)
    (hresults : caller.results = []) :
    Seat rounds crewPoisoned roomPoisoned (.mustering program) caller (.running program)
  | dismissed (program : Lane σ α β) {caller : Caller} (hidle : caller.phase = .idle) (hrounds : rounds = 0)
    (hroom : roomPoisoned = true) : Seat rounds crewPoisoned roomPoisoned .dismissed caller (.running program)
  | running (program : Lane σ α β) {caller : Caller} (hidle : caller.phase = .idle)
    (hlength : caller.results.length = rounds) (hrounds : 0 < rounds) :
    Seat rounds crewPoisoned roomPoisoned (.running program) caller (.running program)
  | coming (next : Lane σ α β) {caller : Caller} (hcomes : caller.Comes rounds) (hrounds : 0 < rounds) :
    Seat rounds crewPoisoned roomPoisoned (.waiting next) caller (.running (.barrier next))
  | joined (next : Lane σ α β) {caller : Caller} (hjoined : caller.Joined rounds) (hrounds : 0 < rounds) :
    Seat rounds crewPoisoned roomPoisoned (.waiting next) caller (.arrived next)
  /-- The lane has arrived, but the crew is poisoned already. -/
  | turnedAway (next : Lane σ α β) {caller : Caller} (hjoined : caller.Joined rounds) (hrounds : 0 < rounds)
    (hcrew : crewPoisoned = true) :
    Seat rounds crewPoisoned roomPoisoned (.waiting next) caller (.unwound (.raised .barrierPoisoned))
  | leaving (next : Lane σ α β) {caller : Caller} (hleaves : caller.Leaves rounds) :
    Seat rounds crewPoisoned roomPoisoned (.waiting next) caller (.running next)
  | poisoning (panic : Panic) {caller : Caller} (hphase : caller.phase = .poisoning ∨ caller.phase = .exposing)
    (hrounds : 0 < rounds) (hcrew : crewPoisoned = true) :
    Seat rounds crewPoisoned roomPoisoned (.poisoning panic) caller (.unwound panic)
  | reporting (panic : Panic) {caller : Caller} (hidle : caller.phase = .idle) (hrounds : 0 < rounds)
    (hcrew : crewPoisoned = true) (hroom : roomPoisoned = true) :
    Seat rounds crewPoisoned roomPoisoned (.reporting panic) caller (.unwound panic)
  | finished (result : β) {caller : Caller} (hidle : caller.phase = .idle)
    (hlength : caller.results.length = rounds) (hrounds : 0 < rounds) :
    Seat rounds crewPoisoned roomPoisoned (.finished result) caller (.finished result)
  | unwound (panic : Panic) {caller : Caller} (hidle : caller.phase = .idle) (hrounds : 0 < rounds)
    (hcrew : crewPoisoned = true) (hroom : roomPoisoned = true) :
    Seat rounds crewPoisoned roomPoisoned (.unwound panic) caller (.unwound panic)

/-- Where the host stands, and its caller at the barrier. -/
inductive HostSeat (refusal : Option String) (roomPoisoned : Bool) (caller : Caller) : Prop
  | starting (hnone : refusal = none) (hidle : caller.phase = .idle)
  | poisoning (hsome : refusal.isSome = true) (hphase : caller.phase = .poisoning ∨ caller.phase = .exposing)
  | done (hsome : refusal.isSome = true) (hidle : caller.phase = .idle) (hroom : roomPoisoned = true)

/-- What a team keeps of its own. -/
structure Kept (team : Team σ α β) : Prop where
  started : ∀ (lane : Nat) (thread : Thread σ α β), team.threads[lane]? = some thread →
    (thread.isAwaited = true ↔ team.started ≤ lane)
  refused : team.refusal.isSome = true → team.started < team.threads.length
  fault : ∀ panic : Panic, team.fault = some panic →
    panic.isRelease = false ∧ ∃ lane : Nat, team.threads[lane]? = some (.unwound panic)
  told : ∀ (lane : Nat) (panic : Panic), team.threads[lane]? = some (.unwound panic) →
    panic.isRelease = false → team.fault.isSome = true

/-- A crew that stands where a team stands, whose barrier has been opened a number of times. -/
structure Mirrors (rounds : Nat) (team : Team σ α β) (crew : Crew σ α β) : Prop where
  kept : team.Kept
  attended : team.room.Attended team.threads.length rounds
  length : crew.stations.length = team.threads.length
  slots : crew.slots = team.slots
  seats : ∀ (lane : Nat) (thread : Thread σ α β) (caller : Caller) (station : Station σ α β),
    team.threads[lane]? = some thread → team.room.callers[lane]? = some caller →
      crew.stations[lane]? = some station →
        Seat rounds crew.poisoned team.room.barrier.poisoned thread caller station
  host : ∀ caller, team.room.callers[team.host]? = some caller →
    HostSeat team.refusal team.room.barrier.poisoned caller
  poisoned : team.room.barrier.poisoned = true → team.refusal.isSome = true ∨ crew.poisoned = true
  source : crew.poisoned = true → ∃ (lane : Nat) (thread : Thread σ α β),
    team.threads[lane]? = some thread ∧ thread.panic?.isSome = true

/-! ## Seats -/

section Seats

variable {rounds : Nat} {crewPoisoned roomPoisoned crewPoisoned' roomPoisoned' : Bool}
  {thread : Thread σ α β} {caller : Caller} {station : Station σ α β}

/-- What is poisoned stays so. -/
theorem Seat.mono (h : Seat rounds crewPoisoned roomPoisoned thread caller station)
    (hcrew : crewPoisoned = true → crewPoisoned' = true) (hroom : roomPoisoned = true → roomPoisoned' = true) :
    Seat rounds crewPoisoned' roomPoisoned' thread caller station := by
  cases h with
  | awaited program hidle hresults hrounds => exact .awaited program hidle hresults hrounds
  | mustering program hwaits hresults => exact .mustering program hwaits hresults
  | dismissed program hidle hrounds hp => exact .dismissed program hidle hrounds (hroom hp)
  | running program hidle hlength hrounds => exact .running program hidle hlength hrounds
  | coming next hcomes hrounds => exact .coming next hcomes hrounds
  | joined next hjoined hrounds => exact .joined next hjoined hrounds
  | turnedAway next hjoined hrounds hp => exact .turnedAway next hjoined hrounds (hcrew hp)
  | leaving next hleaves => exact .leaving next hleaves
  | poisoning panic hphase hrounds hp => exact .poisoning panic hphase hrounds (hcrew hp)
  | reporting panic hidle hrounds hp hp' => exact .reporting panic hidle hrounds (hcrew hp) (hroom hp')
  | finished result hidle hlength hrounds => exact .finished result hidle hlength hrounds
  | unwound panic hidle hrounds hp hp' => exact .unwound panic hidle hrounds (hcrew hp) (hroom hp')

/-- Who comes to a barrier comes there in the crew too. -/
theorem Seat.of_comes {next : Lane σ α β} (h : Seat rounds crewPoisoned roomPoisoned (.waiting next) caller station)
    (hcomes : caller.Comes rounds) : station = .running (.barrier next) ∧ 0 < rounds := by
  cases h with
  | coming _ _ hrounds => exact ⟨rfl, hrounds⟩
  | joined _ hjoined _ => exact absurd hcomes.phase hjoined.ne_arriving
  | turnedAway _ hjoined _ _ => exact absurd hcomes.phase hjoined.ne_arriving
  | leaving _ hleaves => exact absurd hcomes.phase hleaves.ne_arriving

/-- Who has joined a round has arrived in the crew, or has been turned away there. -/
theorem Seat.of_joined {next : Lane σ α β} (h : Seat rounds crewPoisoned roomPoisoned (.waiting next) caller station)
    (hjoined : caller.Joined rounds) : 0 < rounds ∧
      (station = .arrived next ∨ crewPoisoned = true ∧ station = .unwound (.raised .barrierPoisoned)) := by
  cases h with
  | coming _ hcomes _ => exact absurd hcomes.phase hjoined.ne_arriving
  | joined _ _ hrounds => exact ⟨hrounds, .inl rfl⟩
  | turnedAway _ _ hrounds hp => exact ⟨hrounds, .inr ⟨hp, rfl⟩⟩
  | leaving _ hleaves => exact (hjoined.not_leaves hleaves).elim

/-- Who leaves a barrier has passed it in the crew. -/
theorem Seat.of_leaves {next : Lane σ α β} (h : Seat rounds crewPoisoned roomPoisoned (.waiting next) caller station)
    (hleaves : caller.Leaves rounds) : station = .running next := by
  cases h with
  | coming _ hcomes _ => exact absurd hcomes.phase hleaves.ne_arriving
  | joined _ hjoined _ => exact (hjoined.not_leaves hleaves).elim
  | turnedAway _ hjoined _ _ => exact (hjoined.not_leaves hleaves).elim
  | leaving _ _ => rfl

/-- A wake-up leaves a lane on its seat. -/
theorem Seat.notified (h : Seat rounds crewPoisoned roomPoisoned thread caller station) :
    Seat rounds crewPoisoned roomPoisoned thread caller.notified station := by
  -- only who waits can be parked
  have hsame : caller.phase.generation? = none →
      Seat rounds crewPoisoned roomPoisoned thread caller.notified station := by
    intro hnone
    rw [Caller.notified_eq_self hnone]
    exact h
  cases h with
  | mustering program hwaits hresults =>
    exact .mustering program hwaits.notified ((Caller.notified_results caller).trans hresults)
  | joined next hjoined hrounds => exact .joined next hjoined.notified hrounds
  | turnedAway next hjoined hrounds hp => exact .turnedAway next hjoined.notified hrounds hp
  | leaving next hleaves => exact .leaving next hleaves.notified
  | coming next hcomes hrounds => exact hsame (congrArg Phase.generation? hcomes.phase)
  | poisoning panic hphase hrounds hp =>
    refine hsame ?_
    rcases hphase with hphase | hphase <;> (rw [hphase]; rfl)
  | awaited program hidle hresults hrounds => exact hsame (congrArg Phase.generation? hidle)
  | dismissed program hidle hrounds hp => exact hsame (congrArg Phase.generation? hidle)
  | running program hidle hlength hrounds => exact hsame (congrArg Phase.generation? hidle)
  | reporting panic hidle hrounds hp hp' => exact hsame (congrArg Phase.generation? hidle)
  | finished result hidle hlength hrounds => exact hsame (congrArg Phase.generation? hidle)
  | unwound panic hidle hrounds hp hp' => exact hsame (congrArg Phase.generation? hidle)

/-- Who has joined a round is in a wait. -/
theorem Seat.of_hasJoined (h : Seat rounds crewPoisoned roomPoisoned thread caller station)
    (hjoined : caller.hasJoined rounds = true) :
    (∃ program, rounds = 0 ∧ thread = .mustering program ∧ station = .running program) ∨
      0 < rounds ∧ ∃ next, thread = .waiting next ∧
        (station = .arrived next ∨ crewPoisoned = true) := by
  have hnot : caller.phase.generation? = none → False := by
    intro hnone
    rw [Caller.hasJoined_of_outside hnone] at hjoined
    cases hjoined
  cases h with
  | mustering program hwaits hresults =>
    have hlength := (hwaits.joined_of_hasJoined hjoined).length
    rw [hresults] at hlength
    exact .inl ⟨program, hlength.symm, rfl, rfl⟩
  | joined next hjoined hrounds => exact .inr ⟨hrounds, next, rfl, .inl rfl⟩
  | turnedAway next hjoined hrounds hp => exact .inr ⟨hrounds, next, rfl, .inr hp⟩
  | leaving next hleaves => exact absurd (hleaves.hasJoined.symm.trans hjoined) nofun
  | coming next hcomes hrounds => exact absurd (hcomes.hasJoined.symm.trans hjoined) nofun
  | poisoning panic hphase hrounds hp =>
    refine (hnot ?_).elim
    rcases hphase with hphase | hphase <;> (rw [hphase]; rfl)
  | awaited program hidle hresults hrounds => exact (hnot (congrArg Phase.generation? hidle)).elim
  | dismissed program hidle hrounds hp => exact (hnot (congrArg Phase.generation? hidle)).elim
  | running program hidle hlength hrounds => exact (hnot (congrArg Phase.generation? hidle)).elim
  | reporting panic hidle hrounds hp hp' => exact (hnot (congrArg Phase.generation? hidle)).elim
  | finished result hidle hlength hrounds => exact (hnot (congrArg Phase.generation? hidle)).elim
  | unwound panic hidle hrounds hp hp' => exact (hnot (congrArg Phase.generation? hidle)).elim

/-- When the barrier opens, who has joined leaves it. -/
theorem Seat.opened (h : Seat rounds false roomPoisoned thread caller station)
    (hjoined : caller.hasJoined rounds = true) :
    Seat (rounds + 1) false roomPoisoned thread caller station.passed := by
  cases h with
  | mustering program hwaits hresults =>
    exact .mustering program (.leaves (hwaits.joined_of_hasJoined hjoined).leaves) hresults
  | joined next hjoined hrounds => exact .leaving next hjoined.leaves
  | turnedAway next hjoined hrounds hp => cases hp
  | leaving next hleaves => exact absurd (hleaves.hasJoined.symm.trans hjoined) nofun
  | coming next hcomes hrounds => exact absurd (hcomes.hasJoined.symm.trans hjoined) nofun
  | poisoning panic hphase hrounds hp => cases hp
  | reporting panic hidle hrounds hp hp' => cases hp
  | unwound panic hidle hrounds hp hp' => cases hp
  | awaited program hidle hresults hrounds =>
    exact absurd ((Caller.hasJoined_of_outside (congrArg Phase.generation? hidle)).symm.trans hjoined) nofun
  | dismissed program hidle hrounds hp =>
    exact absurd ((Caller.hasJoined_of_outside (congrArg Phase.generation? hidle)).symm.trans hjoined) nofun
  | running program hidle hlength hrounds =>
    exact absurd ((Caller.hasJoined_of_outside (congrArg Phase.generation? hidle)).symm.trans hjoined) nofun
  | finished result hidle hlength hrounds =>
    exact absurd ((Caller.hasJoined_of_outside (congrArg Phase.generation? hidle)).symm.trans hjoined) nofun

end Seats

/-- A wake-up leaves the host where it is. -/
theorem HostSeat.notified {refusal : Option String} {roomPoisoned : Bool} {caller : Caller}
    (h : HostSeat refusal roomPoisoned caller) : HostSeat refusal roomPoisoned caller.notified := by
  have hnone : caller.phase.generation? = none := by
    cases h with
    | starting hnone hidle => exact congrArg Phase.generation? hidle
    | poisoning hsome hphase => rcases hphase with hphase | hphase <;> (rw [hphase]; rfl)
    | done hsome hidle hroom => exact congrArg Phase.generation? hidle
  rw [Caller.notified_eq_self hnone]
  exact h

theorem HostSeat.mono {refusal : Option String} {roomPoisoned roomPoisoned' : Bool} {caller : Caller}
    (h : HostSeat refusal roomPoisoned caller) (hroom : roomPoisoned = true → roomPoisoned' = true) :
    HostSeat refusal roomPoisoned' caller := by
  cases h with
  | starting hnone hidle => exact .starting hnone hidle
  | poisoning hsome hphase => exact .poisoning hsome hphase
  | done hsome hidle hp => exact .done hsome hidle (hroom hp)

/-! ## What a team keeps -/

/-- A thread that goes on: it is neither started nor brought to its end by a panic. -/
structure Goes (thread thread' : Thread σ α β) : Prop where
  started : thread.isAwaited = false ∧ thread'.isAwaited = false
  under : (∀ panic, thread ≠ .unwound panic) ∧ ∀ panic, thread' ≠ .unwound panic
  panics : thread.panic?.isSome = true → thread'.panic?.isSome = true

variable {rounds lane : Nat} {team team' : Team σ α β} {crew crew' : Crew σ α β}
  {thread thread' : Thread σ α β} {caller caller' : Caller} {station station' : Station σ α β}

/-- A thread that has come to its end is not one that goes on. -/
theorem ne_unwound (h : thread.isOver = false) (panic : Panic) : thread ≠ .unwound panic := by
  rintro rfl
  cases h

/-- A thread stays where it is. -/
theorem Goes.stays (hbefore : thread.isAwaited = false) (hlive : thread.isOver = false) : Goes thread thread :=
  ⟨⟨hbefore, hbefore⟩, ⟨ne_unwound hlive, ne_unwound hlive⟩, id⟩

/-- A thread goes on that has not panicked. -/
theorem Goes.quiet (hbefore : thread.isAwaited = false) (hafter : thread'.isAwaited = false)
    (hcalm : thread.panic? = none) (hunder : ∀ panic, thread' ≠ .unwound panic) : Goes thread thread' := by
  refine ⟨⟨hbefore, hafter⟩, ⟨?_, hunder⟩, fun hpanic => ?_⟩
  · rintro panic rfl
    cases hcalm
  · rw [hcalm] at hpanic
    cases hpanic

/-- A lane changes that has not unwound, and does not in this step. -/
theorem Kept.of_set (h : team.Kept) (hthread : team.threads[lane]? = some thread)
    (hthreads : team'.threads = team.threads.set lane thread') (hbefore : ∀ panic, thread ≠ .unwound panic)
    (hafter : ∀ panic, thread' ≠ .unwound panic) (hfault : team'.fault = team.fault)
    (hstarted : ∀ (other : Nat) (sibling : Thread σ α β), team'.threads[other]? = some sibling →
      (sibling.isAwaited = true ↔ team'.started ≤ other))
    (hrefused : team'.refusal.isSome = true → team'.started < team.threads.length) : team'.Kept := by
  -- who has unwound now had unwound before
  have hunwound : ∀ (other : Nat) (panic : Panic), team'.threads[other]? = some (.unwound panic) ↔
      team.threads[other]? = some (.unwound panic) := by
    intro other panic
    rw [hthreads]
    by_cases he : lane = other
    · subst he
      rw [List.getElem?_set_self (List.getElem?_eq_some_iff.mp hthread).1, hthread]
      exact ⟨fun hs => absurd (Option.some.inj hs) (hafter panic),
        fun hs => absurd (Option.some.inj hs) (hbefore panic)⟩
    · rw [List.getElem?_set_ne he]
  refine ⟨hstarted, fun hsome => ?_, fun panic hf => ?_, fun other panic hs hrelease => ?_⟩
  · rw [hthreads, List.length_set]
    exact hrefused hsome
  · obtain ⟨hrelease, other, hs⟩ := h.fault panic (hfault ▸ hf)
    exact ⟨hrelease, other, (hunwound other panic).mpr hs⟩
  · rw [hfault]
    exact h.told other panic ((hunwound other panic).mp hs) hrelease

/-- A lane goes on. -/
theorem Kept.moved (h : team.Kept) (hthread : team.threads[lane]? = some thread)
    (hthreads : team'.threads = team.threads.set lane thread') (hgoes : Goes thread thread')
    (hstarted : team'.started = team.started) (hrefusal : team'.refusal = team.refusal)
    (hfault : team'.fault = team.fault) : team'.Kept := by
  refine h.of_set hthread hthreads hgoes.under.1 hgoes.under.2 hfault (fun other sibling hs => ?_) fun hsome => ?_
  · rw [hthreads] at hs
    rw [hstarted]
    by_cases he : lane = other
    · subst he
      rw [List.getElem?_set_self (List.getElem?_eq_some_iff.mp hthread).1] at hs
      obtain rfl := Option.some.inj hs
      rw [hgoes.started.2, ← h.started lane thread hthread, hgoes.started.1]
    · rw [List.getElem?_set_ne he] at hs
      exact h.started other sibling hs
  · rw [hstarted]
    exact h.refused (hrefusal ▸ hsome)

/-- The host has started a lane. -/
theorem Kept.starts {program : Lane σ α β} (h : team.Kept)
    (hthread : team.threads[team.started]? = some (.awaited program))
    (hthreads : team'.threads = team.threads.set team.started (.mustering program))
    (hstarted : team'.started = team.started + 1) (hrefusal : team'.refusal = none)
    (hfault : team'.fault = team.fault) : team'.Kept := by
  refine h.of_set hthread hthreads nofun nofun hfault (fun other sibling hs => ?_) fun hsome => ?_
  · rw [hthreads] at hs
    rw [hstarted]
    by_cases he : team.started = other
    · subst he
      rw [List.getElem?_set_self (List.getElem?_eq_some_iff.mp hthread).1] at hs
      obtain rfl := Option.some.inj hs
      exact ⟨fun ha => Bool.noConfusion ha, fun hle => absurd hle (Nat.not_succ_le_self _)⟩
    · rw [List.getElem?_set_ne he] at hs
      rw [h.started other sibling hs]
      omega
  · rw [hrefusal] at hsome
    cases hsome

/-- A lane has told its panic. -/
theorem Kept.tells {panic : Panic} (h : team.Kept)
    (hthread : team.threads[lane]? = some (.reporting panic)) : (team.told lane panic).Kept := by
  have hlane := (List.getElem?_eq_some_iff.mp hthread).1
  have hself : (team.told lane panic).threads[lane]? = some (.unwound panic) := List.getElem?_set_self hlane
  have hother : ∀ other, lane ≠ other → (team.told lane panic).threads[other]? = team.threads[other]? :=
    fun _ he => List.getElem?_set_ne he
  have hfault : (team.told lane panic).fault =
      (team.fault <|> if panic.isRelease then none else some panic) := rfl
  refine ⟨fun other sibling hs => ?_, fun hsome => ?_, fun first hf => ?_, fun other first hs hrelease => ?_⟩
  · by_cases he : lane = other
    · subst he
      obtain rfl := Option.some.inj (hself.symm.trans hs)
      exact ⟨fun ha => Bool.noConfusion ha, fun hle => absurd ((h.started lane _ hthread).mpr hle) nofun⟩
    · exact h.started other sibling ((hother other he).symm.trans hs)
  · exact Nat.lt_of_lt_of_eq (h.refused hsome) List.length_set.symm
  · rw [hfault] at hf
    cases hteam : team.fault with
    | some before =>
      rw [hteam] at hf
      obtain rfl : before = first := Option.some.inj hf
      obtain ⟨hrelease, other, hs⟩ := h.fault before hteam
      refine ⟨hrelease, other, (hother other ?_).trans hs⟩
      rintro rfl
      exact nomatch Option.some.inj (hthread.symm.trans hs)
    | none =>
      rw [hteam] at hf
      by_cases hrelease : panic.isRelease = true
      · rw [if_pos hrelease] at hf
        cases hf
      · rw [if_neg hrelease] at hf
        obtain rfl : panic = first := Option.some.inj hf
        exact ⟨Bool.eq_false_iff.mpr hrelease, lane, hself⟩
  · rw [hfault]
    cases hteam : team.fault with
    | some before => rfl
    | none =>
      by_cases he : lane = other
      · subst he
        obtain rfl := Thread.unwound.inj (Option.some.inj (hself.symm.trans hs))
        rw [hrelease]
        rfl
      · have hsome := h.told other first ((hother other he).symm.trans hs) hrelease
        rw [hteam] at hsome
        cases hsome

/-! ## What changes in a turn -/

/-- Every lane of the team has a seat. -/
theorem Mirrors.exists_seat (h : Mirrors rounds team crew) (hthread : team.threads[lane]? = some thread) :
    ∃ caller station, team.room.callers[lane]? = some caller ∧ crew.stations[lane]? = some station ∧
      Seat rounds crew.poisoned team.room.barrier.poisoned thread caller station := by
  have hlane := (List.getElem?_eq_some_iff.mp hthread).1
  have hcaller := List.getElem?_eq_getElem (l := team.room.callers) (i := lane)
    (by rw [h.attended.length_eq]; exact Nat.lt_succ_of_lt hlane)
  have hstation := List.getElem?_eq_getElem (l := crew.stations) (i := lane) (by rw [h.length]; exact hlane)
  exact ⟨_, _, hcaller, hstation, h.seats lane thread _ _ hthread hcaller hstation⟩

/-- Who has panicked had begun before. -/
theorem Seat.rounds_pos {crewPoisoned roomPoisoned : Bool}
    (h : Seat rounds crewPoisoned roomPoisoned thread caller station) (hpanic : thread.panic?.isSome = true) :
    0 < rounds := by
  cases h with
  | poisoning _ _ hrounds _ => exact hrounds
  | reporting _ _ hrounds _ _ => exact hrounds
  | unwound _ _ hrounds _ _ => exact hrounds
  | _ => cases hpanic

theorem Mirrors.rounds_pos_of_panic (h : Mirrors rounds team crew) (hthread : team.threads[lane]? = some thread)
    (hpanic : thread.panic?.isSome = true) : 0 < rounds := by
  obtain ⟨_, _, _, _, hseat⟩ := h.exists_seat hthread
  exact hseat.rounds_pos hpanic

/-- The lanes beside one whose turn it is keep their seats. -/
theorem Mirrors.seat_beside (h : Mirrors rounds team crew) {room' : BarrierRoom}
    (hbeside : team.room.Beside room' lane) {other : Nat} (hother : other ≠ lane)
    {sibling : Thread σ α β} {sibling' : Caller} {place : Station σ α β}
    (hthread : team.threads[other]? = some sibling) (hcaller : room'.callers[other]? = some sibling')
    (hstation : crew.stations[other]? = some place) :
    Seat rounds crew.poisoned team.room.barrier.poisoned sibling sibling' place := by
  obtain ⟨before, hbefore, rfl | rfl⟩ := hbeside other sibling' hother hcaller
  · exact h.seats other sibling _ place hthread hbefore hstation
  · exact (h.seats other sibling before place hthread hbefore hstation).notified

/-- The host beside a lane whose turn it is stays where it is. -/
theorem Mirrors.host_beside (h : Mirrors rounds team crew) {room' : BarrierRoom}
    (hbeside : team.room.Beside room' lane) (hlane : lane < team.threads.length) {host : Caller}
    (hhost : room'.callers[team.threads.length]? = some host) :
    HostSeat team.refusal team.room.barrier.poisoned host := by
  obtain ⟨before, hbefore, rfl | rfl⟩ := hbeside _ host (Nat.ne_of_gt hlane) hhost
  · exact h.host _ hbefore
  · exact (h.host before hbefore).notified

/-- Whoever has poisoned the crew still has when a lane has gone on. -/
theorem source_of_set (hthread : team.threads[lane]? = some thread)
    (hthreads : team'.threads = team.threads.set lane thread')
    (hpanics : thread.panic?.isSome = true → thread'.panic?.isSome = true)
    (hsource : ∃ (lane : Nat) (thread : Thread σ α β),
      team.threads[lane]? = some thread ∧ thread.panic?.isSome = true) :
    ∃ (lane : Nat) (thread : Thread σ α β),
      team'.threads[lane]? = some thread ∧ thread.panic?.isSome = true := by
  have hlane := (List.getElem?_eq_some_iff.mp hthread).1
  obtain ⟨other, sibling, hs, hpanic⟩ := hsource
  rw [hthreads]
  by_cases he : lane = other
  · subst he
    obtain rfl := Option.some.inj (hthread.symm.trans hs)
    exact ⟨lane, thread', List.getElem?_set_self hlane, hpanics hpanic⟩
  · exact ⟨other, sibling, (List.getElem?_set_ne he).trans hs, hpanic⟩

/-- **A lane goes on within its round**, and so does its counterpart in the crew. -/
theorem Mirrors.moved (h : Mirrors rounds team crew) (hthread : team.threads[lane]? = some thread)
    (hthreads : team'.threads = team.threads.set lane thread') (hrefusal : team'.refusal = team.refusal)
    (hkept : team'.Kept)
    (hpasses : BarrierRoom.Passes team.threads.length rounds team.room team'.room lane caller caller')
    (hseat : Seat rounds crew'.poisoned team'.room.barrier.poisoned thread' caller' station')
    (hslots : crew'.slots = team'.slots) (hstations : crew'.stations = crew.stations.set lane station')
    (hpanics : thread.panic?.isSome = true → thread'.panic?.isSome = true)
    (hcrew : crew'.poisoned = crew.poisoned ∨ crew'.poisoned = true ∧ thread'.panic?.isSome = true)
    (hroom : team'.room.barrier.poisoned = team.room.barrier.poisoned ∨
      team'.room.barrier.poisoned = true ∧ crew'.poisoned = true) :
    Mirrors rounds team' crew' := by
  have hlane := (List.getElem?_eq_some_iff.mp hthread).1
  have hlength : team'.threads.length = team.threads.length := by rw [hthreads, List.length_set]
  have hcrewMono : crew.poisoned = true → crew'.poisoned = true := by
    rcases hcrew with hsame | ⟨hp, _⟩
    · rw [hsame]
      exact id
    · exact fun _ => hp
  have hroomMono : team.room.barrier.poisoned = true → team'.room.barrier.poisoned = true := by
    rcases hroom with hsame | ⟨hp, _⟩
    · rw [hsame]
      exact id
    · exact fun _ => hp
  refine ⟨hkept, hlength ▸ hpasses.attended, ?_, hslots, fun other sibling now place hs hc hp => ?_,
    fun host hhost => ?_, fun hp => ?_, fun hp => ?_⟩
  · rw [hstations, List.length_set, hlength]
    exact h.length
  · rw [hthreads] at hs
    rw [hstations] at hp
    by_cases he : lane = other
    · subst he
      rw [List.getElem?_set_self hlane] at hs
      rw [List.getElem?_set_self (h.length ▸ hlane)] at hp
      obtain rfl := Option.some.inj hs
      obtain rfl := Option.some.inj hp
      obtain rfl := Option.some.inj (hpasses.own.symm.trans hc)
      exact hseat
    · rw [List.getElem?_set_ne he] at hs hp
      exact (h.seat_beside hpasses.others (Ne.symm he) hs hc hp).mono hcrewMono hroomMono
  · rw [Team.host, hlength] at hhost
    rw [hrefusal]
    exact (h.host_beside hpasses.others hlane hhost).mono hroomMono
  · rw [hrefusal]
    rcases hroom with hsame | ⟨_, hpoisoned⟩
    · exact (h.poisoned (hsame ▸ hp)).imp_right hcrewMono
    · exact .inr hpoisoned
  · rcases hcrew with hsame | ⟨_, hpanic⟩
    · exact source_of_set hthread hthreads hpanics (h.source (hsame ▸ hp))
    · exact ⟨lane, thread', by rw [hthreads]; exact List.getElem?_set_self hlane, hpanic⟩

/-- **A lane goes on within its round**, and the crew stays as it is. -/
theorem Mirrors.moved_alone (h : Mirrors rounds team crew) (hthread : team.threads[lane]? = some thread)
    (hstation : crew.stations[lane]? = some station)
    (hthreads : team'.threads = team.threads.set lane thread') (hrefusal : team'.refusal = team.refusal)
    (hslots : team'.slots = team.slots) (hkept : team'.Kept)
    (hpasses : BarrierRoom.Passes team.threads.length rounds team.room team'.room lane caller caller')
    (hseat : Seat rounds crew.poisoned team'.room.barrier.poisoned thread' caller' station)
    (hpanics : thread.panic?.isSome = true → thread'.panic?.isSome = true)
    (hroom : team'.room.barrier.poisoned = team.room.barrier.poisoned ∨
      team'.room.barrier.poisoned = true ∧ crew.poisoned = true) :
    Mirrors rounds team' crew := by
  refine h.moved hthread hthreads hrefusal hkept hpasses hseat (h.slots.trans hslots.symm) ?_ hpanics
    (.inl rfl) hroom
  obtain ⟨hlt, rfl⟩ := List.getElem?_eq_some_iff.mp hstation
  rw [List.set_getElem_self]

/-- **The last lane arrives**, and all others go on with it into the next round. -/
theorem Mirrors.opens (h : Mirrors rounds team crew) (hthread : team.threads[lane]? = some thread)
    (hthreads : team'.threads = team.threads.set lane thread') (hrefusal : team'.refusal = team.refusal)
    (hkept : team'.Kept)
    (hpasses : BarrierRoom.Passes team.threads.length (rounds + 1) team.room team'.room lane caller caller')
    (hjoined : ∀ other < team.threads.length, other ≠ lane → ∀ sibling,
      team.room.callers[other]? = some sibling → sibling.hasJoined rounds = true)
    (hcalm : crew.poisoned = false) (hcalm' : crew'.poisoned = false)
    (hquiet : team.room.barrier.poisoned = false) (hquiet' : team'.room.barrier.poisoned = false)
    (hseat : Seat (rounds + 1) false false thread' caller' station') (hslots : crew'.slots = team'.slots)
    (hlength : crew'.stations.length = crew.stations.length)
    (hstation : crew'.stations[lane]? = some station')
    (hstations : ∀ other, other ≠ lane → crew'.stations[other]? = crew.stations[other]?.map Station.passed) :
    Mirrors (rounds + 1) team' crew' := by
  have hlane := (List.getElem?_eq_some_iff.mp hthread).1
  have hsame : team'.threads.length = team.threads.length := by rw [hthreads, List.length_set]
  refine ⟨hkept, hsame ▸ hpasses.attended, ?_, hslots, fun other sibling now place hs hc hp => ?_,
    fun host hhost => ?_, fun hp => ?_, fun hp => ?_⟩
  · rw [hlength, hsame]
    exact h.length
  · rw [hcalm', hquiet']
    rw [hthreads] at hs
    by_cases he : lane = other
    · subst he
      rw [List.getElem?_set_self hlane] at hs
      obtain rfl := Option.some.inj hs
      obtain rfl := Option.some.inj (hstation.symm.trans hp)
      obtain rfl := Option.some.inj (hpasses.own.symm.trans hc)
      exact hseat
    · rw [List.getElem?_set_ne he] at hs
      rw [hstations other (Ne.symm he)] at hp
      obtain ⟨before, hbefore, rfl⟩ := Option.map_eq_some_iff.mp hp
      have hseats := h.seat_beside hpasses.others (Ne.symm he) hs hc hbefore
      rw [hcalm, hquiet] at hseats
      refine hseats.opened ?_
      have hlt := (List.getElem?_eq_some_iff.mp hs).1
      obtain ⟨early, hearly, rfl | rfl⟩ := hpasses.others other now (Ne.symm he) hc
      · exact hjoined other hlt (Ne.symm he) _ hearly
      · rw [Caller.hasJoined_notified]
        exact hjoined other hlt (Ne.symm he) _ hearly
  · rw [Team.host, hsame] at hhost
    rw [hrefusal, hquiet', ← hquiet]
    exact h.host_beside hpasses.others hlane hhost
  · rw [hquiet'] at hp
    cases hp
  · rw [hcalm'] at hp
    cases hp

/-- **The host goes on**, or somebody wakes up: the lanes keep their seats. -/
theorem Mirrors.hosts (h : Mirrors rounds team crew) (hkept : team'.Kept)
    (hthreads : team'.threads = team.threads) (hslots : team'.slots = team.slots)
    (hattended : team'.room.Attended team.threads.length rounds)
    (hroom : team.room.barrier.poisoned = true → team'.room.barrier.poisoned = true)
    (hlanes : ∀ other < team.threads.length, ∀ sibling', team'.room.callers[other]? = some sibling' →
      ∃ sibling, team.room.callers[other]? = some sibling ∧ (sibling' = sibling ∨ sibling' = sibling.notified))
    (hhost : ∀ host, team'.room.callers[team.threads.length]? = some host →
      HostSeat team'.refusal team'.room.barrier.poisoned host)
    (hpoisoned : team'.room.barrier.poisoned = true → team'.refusal.isSome = true ∨ crew.poisoned = true) :
    Mirrors rounds team' crew := by
  refine ⟨hkept, hthreads ▸ hattended, h.length.trans (congrArg List.length hthreads.symm),
    h.slots.trans hslots.symm, fun other sibling now place hs hc hp => ?_, fun caller hcaller => ?_, hpoisoned,
    fun hp => hthreads ▸ h.source hp⟩
  · rw [hthreads] at hs
    obtain ⟨before, hbefore, rfl | rfl⟩ := hlanes other (List.getElem?_eq_some_iff.mp hs).1 now hc
    · exact (h.seats other sibling _ place hs hbefore hp).mono id hroom
    · exact ((h.seats other sibling before place hs hbefore hp).mono id hroom).notified
  · rw [Team.host, hthreads] at hcaller
    exact hhost caller hcaller

end Team

end BlockMachine
