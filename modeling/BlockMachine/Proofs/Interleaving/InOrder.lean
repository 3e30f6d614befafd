import BlockMachine.Proofs.Block.Run
import BlockMachine.Proofs.Interleaving.Standstill

/-!
# The lane order is one of the orders

`Block.run` lets the lanes of a block stop one after the other, barrier by barrier.  A block whose lanes
take turns can do the same.

* `Crew.exists_run_stopped` — a lane takes turns until it stops.
* `Crew.Halted` — a block some of whose lanes have stopped, one after the other.
* `Crew.exists_run_of_stage` — from one barrier to the next, or to a standstill.
* `Crew.inOrder` — so some turns bring a block to where `Block.run` brings it.
-/

set_option autoImplicit false

namespace BlockMachine

variable {σ α β : Type}

/-- Where a lane is that has stopped: if it waits it is at its barrier, or has been turned away from it. -/
inductive Stop.At (poisoned : Bool) : Stop σ α β → Station σ α β → Prop
  | finished (result : β) : At poisoned (.finished result) (.finished result)
  | faulted (panic : Panic) : At poisoned (.faulted panic) (.unwound panic)
  | waiting (next : Lane σ α β) : At poisoned (.waiting next) (.arrived next)
  | turnedAway (next : Lane σ α β) (h : poisoned = true) :
    At poisoned (.waiting next) (.unwound (.raised .barrierPoisoned))

theorem Stop.At.mono {early late : Bool} (hle : early = true → late = true) {stop : Stop σ α β}
    {station : Station σ α β} (h : stop.At early station) : stop.At late station := by
  cases h with
  | finished result => exact .finished result
  | faulted panic => exact .faulted panic
  | waiting next => exact .waiting next
  | turnedAway next h => exact .turnedAway next (hle h)

theorem exists_mem_of_forall₂ {γ δ : Type} {R : γ → δ → Prop} {early : List γ} {late : List δ}
    (h : List.Forall₂ R early late) {first : γ} (hmem : first ∈ early) :
    ∃ second ∈ late, R first second := by
  induction h with
  | nil => cases hmem
  | @cons _ second _ _ hone _ ih =>
    rcases List.mem_cons.mp hmem with rfl | hmem
    · exact ⟨second, List.mem_cons_self, hone⟩
    · obtain ⟨other, hother, hR⟩ := ih hmem
      exact ⟨other, List.mem_cons_of_mem _ hother, hR⟩

/-- All lanes wait, or there is one that does not. -/
theorem Block.resumable?_eq_or (stops : List (Stop σ α β)) :
    (∃ next, resumable? stops = some next ∧ stops = next.map .waiting) ∨
      (resumable? stops = none ∧ ∃ stop ∈ stops, stop.next? = none) := by
  induction stops with
  | nil => exact .inl ⟨[], rfl, rfl⟩
  | cons first others ih =>
    -- a lane that does not wait keeps the barrier shut
    have hshut : ∀ stop ∈ first :: others, stop.next? = none →
        resumable? (first :: others) = none ∧ ∃ stop ∈ first :: others, stop.next? = none :=
      fun stop hmem hstop => ⟨resumable?_eq_none hmem hstop, stop, hmem, hstop⟩
    cases first with
    | finished _ => exact .inr (hshut _ List.mem_cons_self rfl)
    | faulted _ => exact .inr (hshut _ List.mem_cons_self rfl)
    | waiting program =>
      rcases ih with ⟨next, hnext, rfl⟩ | ⟨_, stop, hmem, hstop⟩
      · refine .inl ⟨program :: next, ?_, rfl⟩
        unfold resumable? at hnext ⊢
        rw [List.mapM_cons, hnext]
        rfl
      · exact .inr (hshut stop (List.mem_cons_of_mem _ hmem) hstop)

namespace Crew

theorem run_append (callbacks : Callbacks σ α) (crew : Crew σ α β) (store : Store α)
    (early late : List Nat) :
    crew.run callbacks store (early ++ late) =
      (crew.run callbacks store early).1.run callbacks (crew.run callbacks store early).2 late :=
  List.foldl_append

variable {callbacks : Callbacks σ α} {crew : Crew σ α β} {stops : List (Stop σ α β)}
  {lane : Nat} {program : Lane σ α β} {rest : List (Lane σ α β)} {store : Store α}

/-! ## A lane that stops -/

/-- The crew after a lane has stopped, before a barrier opens. -/
def stopped (crew : Crew σ α β) (lane : Nat) : Stop σ α β → Crew σ α β
  | .finished result => crew.moved lane (.finished result)
  | .faulted panic => crew.unwound lane panic
  | .waiting next =>
    if crew.poisoned then crew.unwound lane (.raised .barrierPoisoned)
    else crew.moved lane (.arrived next)

theorem stopped_moved (crew : Crew σ α β) (lane : Nat) (station : Station σ α β) (stop : Stop σ α β) :
    (crew.moved lane station).stopped lane stop = crew.stopped lane stop := by
  cases stop with
  | finished _ => simp only [stopped, moved, List.set_set]
  | faulted _ => simp only [stopped, unwound, moved, List.set_set]
  | waiting _ => simp only [stopped, unwound, moved, List.set_set]

theorem stopped_slots (crew : Crew σ α β) (lane : Nat) (stop : Stop σ α β) :
    (crew.stopped lane stop).slots = crew.slots := by
  cases stop with
  | finished _ => rfl
  | faulted _ => rfl
  | waiting _ =>
    show (ite _ _ _ : Crew σ α β).slots = crew.slots
    split <;> rfl

/-- A barrier does not open for a lane that has not arrived at it. -/
theorem opened_eq_self {station : Station σ α β} (hs : station ∈ crew.stations)
    (h : station.isArrived = false) : crew.opened = crew := by
  refine if_neg fun hall => ?_
  rw [List.all_eq_true.mp hall station hs] at h
  cases h

theorem opened_moved (crew : Crew σ α β) (hlane : lane < crew.stations.length)
    {station : Station σ α β} (h : station.isArrived = false) :
    (crew.moved lane station).opened = crew.moved lane station :=
  opened_eq_self (List.mem_of_getElem? (List.getElem?_set_self hlane)) h

theorem opened_unwound (crew : Crew σ α β) (hlane : lane < crew.stations.length) (panic : Panic) :
    (crew.unwound lane panic).opened = crew.unwound lane panic :=
  opened_eq_self (List.mem_of_getElem? (List.getElem?_set_self hlane)) rfl

/-- **A lane takes turns until it stops**, where `Lane.advance` stops it. -/
theorem exists_run_stopped (callbacks : Callbacks σ α)
    (hs : crew.stations[lane]? = some (.running program)) (store : Store α) :
    ∃ turns, crew.run callbacks store turns =
      let (stop, machine) := program.advance callbacks ⟨crew.slots, store⟩
      (({ crew with slots := machine.slots }.stopped lane stop).opened, machine.store) := by
  induction program generalizing crew store with
  | done result =>
    refine ⟨[lane], ?_⟩
    have hlane := (List.getElem?_eq_some_iff.mp hs).1
    show crew.turn callbacks lane store = ((crew.moved lane (.finished result)).opened, store)
    rw [opened_moved crew hlane rfl, turn, hs]
  | fault panic =>
    refine ⟨[lane], ?_⟩
    have hlane := (List.getElem?_eq_some_iff.mp hs).1
    show crew.turn callbacks lane store = ((crew.unwound lane panic).opened, store)
    rw [opened_unwound crew hlane, turn, hs]
  | barrier next _ =>
    refine ⟨[lane], ?_⟩
    have hlane := (List.getElem?_eq_some_iff.mp hs).1
    show crew.turn callbacks lane store = ((crew.stopped lane (.waiting next)).opened, store)
    rw [turn, hs]
    simp only [atBarrier, stopped]
    by_cases hp : crew.poisoned = true
    · rw [if_pos hp, if_pos hp, opened_unwound crew hlane]
    · rw [if_neg hp, if_neg hp]
  | ask request next ih =>
    have hlane := (List.getElem?_eq_some_iff.mp hs).1
    have hturn : crew.turn callbacks lane store =
        crew.answered lane next (Machine.perform callbacks request ⟨crew.slots, store⟩) := by
      rw [turn, hs]
    simp only [Lane.advance, Lane.drive] at ih ⊢
    cases hperform : Machine.perform callbacks request ⟨crew.slots, store⟩ with
    | mk result machine =>
      rw [hperform] at hturn
      cases result with
      | error panic =>
        refine ⟨[lane], ?_⟩
        show crew.turn callbacks lane store = _
        rw [hturn]
        show ({ crew with slots := machine.slots }.unwound lane panic, machine.store) =
          (({ crew with slots := machine.slots }.unwound lane panic).opened, machine.store)
        rw [opened_unwound { crew with slots := machine.slots } hlane]
      | ok answer =>
        -- the lane goes on from the answer
        have hnext : ({ crew with slots := machine.slots }.moved lane
            (.running (next answer))).stations[lane]? = some (.running (next answer)) :=
          List.getElem?_set_self hlane
        obtain ⟨turns, hrun⟩ := ih answer hnext machine.store
        refine ⟨lane :: turns, ?_⟩
        show (crew.turn callbacks lane store).1.run callbacks (crew.turn callbacks lane store).2 turns = _
        rw [hturn]
        refine hrun.trans ?_
        exact congrArg (fun crew => (opened crew, _)) (stopped_moved { crew with slots := _ } ..)

/-! ## Lanes that stop one after the other -/

/-- A block whose first lanes have stopped, one after the other, and whose other lanes are yet to run. -/
structure Halted (crew : Crew σ α β) (stops : List (Stop σ α β)) (programs : List (Lane σ α β)) :
    Prop where
  stations : ∃ left, crew.stations = left ++ programs.map .running ∧
    List.Forall₂ (Stop.At crew.poisoned) stops left
  poisoned : crew.poisoned = !(stops.filterMap Stop.panic?).isEmpty
  fault : crew.fault = (stops.filterMap Stop.panic?).find? fun panic => !panic.isRelease

theorem halted_start (slots : Array σ) (programs : List (Lane σ α β)) :
    (start slots programs).Halted [] programs :=
  ⟨⟨[], rfl, .nil⟩, rfl, rfl⟩

theorem Halted.with_slots (h : crew.Halted stops rest) (slots : Array σ) :
    { crew with slots := slots }.Halted stops rest :=
  ⟨h.stations, h.poisoned, h.fault⟩

/-- One more lane stops. -/
theorem Halted.concat (h : crew.Halted stops (program :: rest)) {crew' : Crew σ α β}
    {station : Station σ α β} {stop : Stop σ α β}
    (hset : crew'.stations = crew.stations.set stops.length station)
    (hat : stop.At crew'.poisoned station)
    (hpoisoned : crew'.poisoned = (crew.poisoned || stop.panic?.isSome))
    (hfault : crew'.fault = crew.fault.or (stop.panic?.filter fun panic => !panic.isRelease)) :
    crew'.Halted (stops ++ [stop]) rest := by
  obtain ⟨left, hstations, hleft⟩ := h.stations
  have hle : crew.poisoned = true → crew'.poisoned = true := fun hp => by
    rw [hpoisoned, hp, Bool.true_or]
  have hpanics : (stops ++ [stop]).filterMap Stop.panic? =
      stops.filterMap Stop.panic? ++ stop.panic?.toList := by
    rw [List.filterMap_append]
    cases hpanic : stop.panic? with
    | none => rw [List.filterMap_cons_none hpanic]; rfl
    | some panic => rw [List.filterMap_cons_some hpanic]; rfl
  refine ⟨⟨left ++ [station], ?_,
    List.rel_append (hleft.imp fun _ _ hat => hat.mono hle) (.cons hat .nil)⟩, ?_, ?_⟩
  · rw [hset, hstations, hleft.length_eq]
    simp
  · rw [hpoisoned, h.poisoned, hpanics]
    cases stop.panic? <;> simp
  · rw [hfault, h.fault, hpanics, List.find?_append]
    cases hpanic : stop.panic? with
    | none => rfl
    | some panic => cases hrelease : panic.isRelease <;> simp [Option.filter, hrelease]

theorem unwound_fault (crew : Crew σ α β) (lane : Nat) (panic : Panic) :
    (crew.unwound lane panic).fault =
      crew.fault.or ((some panic).filter fun panic => !panic.isRelease) := by
  show (crew.fault <|> _) = _
  cases hrelease : panic.isRelease with
  | false =>
    rw [Option.filter_some_pos (by rw [hrelease]; rfl)]
    cases crew.fault <;> rfl
  | true =>
    rw [Option.filter_some_neg (by rw [hrelease]; rfl)]
    cases crew.fault <;> rfl

theorem Halted.stopped (h : crew.Halted stops (program :: rest)) (stop : Stop σ α β) :
    (crew.stopped stops.length stop).Halted (stops ++ [stop]) rest := by
  cases stop with
  | finished result => exact h.concat rfl (.finished result) (Bool.or_false _).symm (Option.or_none).symm
  | faulted panic => exact h.concat rfl (.faulted panic) (Bool.or_true _).symm (unwound_fault ..)
  | waiting next =>
    unfold Crew.stopped
    by_cases hp : crew.poisoned = true
    · simp only [if_pos hp]
      -- what turns the lane away is not a fault of the block
      exact h.concat rfl (.turnedAway next rfl) (by rw [hp]; rfl) (unwound_fault ..)
    · simp only [if_neg hp]
      exact h.concat rfl (.waiting next) (Bool.or_false _).symm Option.or_none.symm

/-- The barrier does not open before the last lane has stopped. -/
theorem Halted.opened_of_cons (h : crew.Halted stops (program :: rest)) : crew.opened = crew := by
  obtain ⟨left, hstations, _⟩ := h.stations
  have hmem : Station.running program ∈ crew.stations := by
    rw [hstations]
    exact List.mem_append_right _ List.mem_cons_self
  exact opened_eq_self hmem rfl

/-- Lanes all of which wait are at the barrier, unless the block is poisoned. -/
theorem arrived_of_at {left : List (Station σ α β)} {next : List (Lane σ α β)}
    (hleft : List.Forall₂ (Stop.At false) (next.map .waiting) left) : left = next.map .arrived := by
  induction next generalizing left with
  | nil =>
    cases hleft
    rfl
  | cons first others ih =>
    cases hleft with
    | cons hat hothers =>
      rw [ih hothers]
      cases hat with
      | waiting _ => rfl
      | turnedAway _ h => cases h

/-- **When the last lane has stopped**, the barrier opens if all lanes wait, and stays shut otherwise. -/
theorem Halted.opened (h : crew.Halted stops []) :
    (∃ next, Block.resumable? stops = some next ∧ crew.opened = start crew.slots next) ∨
      (Block.resumable? stops = none ∧ crew.opened = crew) := by
  obtain ⟨left, hstations, hleft⟩ := h.stations
  rw [List.map_nil, List.append_nil] at hstations
  rcases Block.resumable?_eq_or stops with ⟨next, hnext, rfl⟩ | ⟨hshut, stop, hmem, hstop⟩
  · refine .inl ⟨next, hnext, ?_⟩
    have hp : crew.poisoned = false := by
      rw [h.poisoned]
      simp [Stop.panic?]
    have hfault : crew.fault = none := by
      rw [h.fault]
      simp [List.filterMap_map, Stop.panic?]
    rw [hp] at hleft
    have hall : crew.stations.all Station.isArrived = true := by
      rw [hstations, arrived_of_at hleft, List.all_map]
      exact List.all_eq_true.mpr fun _ _ => rfl
    have hpassed : crew.stations.map Station.passed = next.map .running := by
      rw [hstations, arrived_of_at hleft, List.map_map]
      rfl
    rw [show crew.opened = _ from if_pos hall, hpassed, hp, hfault]
    rfl
  · obtain ⟨station, hs, hat⟩ := exists_mem_of_forall₂ hleft hmem
    refine .inr ⟨hshut, opened_eq_self (hstations ▸ hs) ?_⟩
    cases hat with
    | finished _ => rfl
    | faulted _ => rfl
    | waiting _ => cases hstop
    | turnedAway _ _ => cases hstop

/-- **The lanes of a block stop one after the other**, and the barrier opens if all of them wait. -/
theorem Halted.exists_run (callbacks : Callbacks σ α) (h : crew.Halted stops rest) (hrest : rest ≠ [])
    (store : Store α) :
    ∃ (turns : List Nat) (last : Crew σ α β),
      let (others, machine) := Lane.advanceAll callbacks rest ⟨crew.slots, store⟩
      crew.run callbacks store turns = (last.opened, machine.store) ∧ last.slots = machine.slots ∧
        last.Halted (stops ++ others) [] := by
  induction rest generalizing crew stops store with
  | nil => exact absurd rfl hrest
  | cons program rest ih =>
    obtain ⟨left, hstations, hleft⟩ := h.stations
    have hs : crew.stations[stops.length]? = some (.running program) := by
      rw [hstations, hleft.length_eq]
      simp
    obtain ⟨turns, hrun⟩ := exists_run_stopped callbacks hs store
    simp only [Lane.advanceAll]
    cases hadvance : program.advance callbacks ⟨crew.slots, store⟩ with
    | mk stop machine =>
      simp only [hadvance] at hrun
      have hnext := (h.with_slots machine.slots).stopped stop
      have hslots := stopped_slots { crew with slots := machine.slots } stops.length stop
      cases rest with
      | nil => exact ⟨turns, _, hrun, hslots, hnext⟩
      | cons second others =>
        rw [hnext.opened_of_cons] at hrun
        obtain ⟨more, last, hmore, hlast, hhalted⟩ := ih hnext (List.cons_ne_nil _ _) machine.store
        rw [hslots] at hmore hlast hhalted
        rw [List.append_assoc] at hhalted
        refine ⟨turns ++ more, last, ?_, hlast, hhalted⟩
        rw [run_append, hrun]
        exact hmore

/-! ## The end of a block -/

/-- A lane that has been at a barrier may be turned away from it. -/
theorem forall₂_set {poisoned : Bool} {left : List (Station σ α β)} {next : Lane σ α β}
    (hleft : List.Forall₂ (Stop.At poisoned) stops left) (hp : poisoned = true)
    (hs : left[lane]? = some (.arrived next)) :
    List.Forall₂ (Stop.At poisoned) stops (left.set lane (.unwound (.raised .barrierPoisoned))) := by
  induction hleft generalizing lane with
  | nil => cases hs
  | @cons stop station others left hat hothers ih =>
    cases lane with
    | zero =>
      obtain rfl := Option.some.inj hs
      cases hat with
      | waiting next => exact .cons (.turnedAway next hp) hothers
    | succ lane => exact .cons hat (ih hs)

/-- Where a lane is when all lanes have stopped. -/
theorem Halted.exists_stop (h : crew.Halted stops []) {station : Station σ α β}
    (hmem : station ∈ crew.stations) : ∃ stop ∈ stops, stop.At crew.poisoned station := by
  obtain ⟨left, hstations, hleft⟩ := h.stations
  rw [hstations, List.map_nil, List.append_nil] at hmem
  exact exists_mem_of_forall₂ (List.Forall₂.flip hleft) hmem

theorem Halted.exists_station (h : crew.Halted stops []) {stop : Stop σ α β} (hmem : stop ∈ stops) :
    ∃ station ∈ crew.stations, stop.At crew.poisoned station := by
  obtain ⟨left, hstations, hleft⟩ := h.stations
  rw [hstations, List.map_nil, List.append_nil]
  exact exists_mem_of_forall₂ hleft hmem

/-- Once all lanes have stopped, a turn at most turns one of them away from the barrier. -/
theorem Halted.turn (callbacks : Callbacks σ α) (h : crew.Halted stops []) (lane : Nat) (store : Store α) :
    (crew.turn callbacks lane store).1.Halted stops [] ∧ (crew.turn callbacks lane store).2 = store := by
  obtain ⟨left, hstations, hleft⟩ := h.stations
  rw [List.map_nil, List.append_nil] at hstations
  unfold Crew.turn
  cases hs : crew.stations[lane]? with
  | none => exact ⟨h, rfl⟩
  | some station =>
    cases station with
    | finished _ => exact ⟨h, rfl⟩
    | unwound _ => exact ⟨h, rfl⟩
    | arrived next =>
      by_cases hp : crew.poisoned = true
      · simp only [if_pos hp]
        rw [hstations] at hs
        refine ⟨⟨⟨_, (List.append_nil _).symm, ?_⟩, ?_, ?_⟩, trivial⟩
        · show List.Forall₂ (Stop.At true) stops (crew.stations.set lane _)
          rw [hstations]
          exact forall₂_set (hp ▸ hleft) rfl hs
        · rw [← h.poisoned, hp]
          rfl
        · rw [unwound_fault, ← h.fault]
          exact Option.or_none
      · simp only [if_neg hp]
        exact ⟨h, trivial⟩
    | running program =>
      -- a lane that has stopped does not run
      obtain ⟨stop, _, hat⟩ := h.exists_stop (List.mem_of_getElem? hs)
      cases hat

theorem Halted.run (callbacks : Callbacks σ α) (h : crew.Halted stops []) (turns : List Nat)
    (store : Store α) :
    (crew.run callbacks store turns).1.Halted stops [] ∧ (crew.run callbacks store turns).2 = store := by
  induction turns generalizing crew store with
  | nil => exact ⟨h, rfl⟩
  | cons lane rest ih =>
    obtain ⟨hturn, hstore⟩ := h.turn callbacks lane store
    obtain ⟨hrun, hstore'⟩ := ih hturn (crew.turn callbacks lane store).2
    exact ⟨hrun, hstore'.trans hstore⟩

/-- How a block has ended, or not if some lanes still wait for others. -/
def outcome (crew : Crew σ α β) : BlockEnd := if crew.isOver then crew.ending else .deadlock

/-- A block at a standstill is not over if some lane waits and nobody has poisoned the block. -/
theorem Halted.isOver_eq_false_iff (h : crew.Halted stops []) (hrests : ∀ lane, crew.Rests lane) :
    crew.isOver = false ↔
      crew.poisoned = false ∧ stops.any (fun stop => stop.next?.isSome) = true := by
  unfold isOver
  rw [List.all_eq_false, List.any_eq_true]
  constructor
  · rintro ⟨station, hmem, hlive⟩
    obtain ⟨stop, hstop, hat⟩ := h.exists_stop hmem
    obtain ⟨lane, hs⟩ := List.mem_iff_getElem?.mp hmem
    have hrest := hrests lane
    unfold Rests at hrest
    rw [hs] at hrest
    cases hat with
    | finished _ => exact absurd rfl hlive
    | faulted _ => exact absurd rfl hlive
    | turnedAway _ _ => exact absurd rfl hlive
    | waiting next => exact ⟨hrest, _, hstop, rfl⟩
  · rintro ⟨hp, stop, hmem, hnext⟩
    obtain ⟨station, hs, hat⟩ := h.exists_station hmem
    refine ⟨station, hs, ?_⟩
    cases hat with
    | finished _ => cases hnext
    | faulted _ => cases hnext
    | waiting _ => exact Bool.false_ne_true
    | turnedAway _ hpoisoned =>
      rw [hp] at hpoisoned
      cases hpoisoned

/-- **A block at a standstill has ended as its stops tell.** -/
theorem Halted.outcome_eq (h : crew.Halted stops []) (hrests : ∀ lane, crew.Rests lane) :
    crew.outcome = Block.verdict stops := by
  have hover := h.isOver_eq_false_iff hrests
  have hp := h.poisoned
  unfold outcome ending Block.verdict
  rw [h.fault]
  cases hpanics : stops.filterMap Stop.panic? with
  | cons first others =>
    rw [hpanics] at hp
    have hall : crew.isOver = true := eq_true_of_ne_false fun hlive => by
      rw [(hover.mp hlive).1] at hp
      cases hp
    rw [if_pos hall, hp]
    rfl
  | nil =>
    rw [hpanics] at hp
    by_cases hwaits : stops.any (fun stop => stop.next?.isSome) = true
    · rw [hover.mpr ⟨hp, hwaits⟩]
      exact (if_pos hwaits).symm
    · have hall : crew.isOver = true := eq_true_of_ne_false fun hlive => hwaits (hover.mp hlive).2
      rw [if_pos hall, hp]
      exact (if_neg hwaits).symm

/-- **Some turns bring a block to the next barrier or to a standstill.** -/
theorem exists_run_of_stage (callbacks : Callbacks σ α) {programs : List (Lane σ α β)}
    (hprograms : programs ≠ []) (slots : Array σ) (store : Store α) :
    let (stops, machine) := Lane.advanceAll callbacks programs ⟨slots, store⟩
    ∃ (turns : List Nat) (crew : Crew σ α β),
      (start slots programs).run callbacks store turns = (crew, machine.store) ∧
        ((∃ next, Block.resumable? stops = some next ∧ crew = start machine.slots next) ∨
          (Block.resumable? stops = none ∧ (∀ lane, crew.Rests lane) ∧
            crew.outcome = Block.verdict stops)) := by
  obtain ⟨turns, last, hrun, hslots, hhalted⟩ :=
    (halted_start slots programs).exists_run callbacks hprograms store
  rcases hhalted.opened with ⟨next, hnext, hopened⟩ | ⟨hshut, hopened⟩
  · refine ⟨turns, _, hrun, .inl ⟨next, hnext, ?_⟩⟩
    rw [hopened, hslots]
    rfl
  · obtain ⟨more, hrests⟩ := exists_standstill callbacks last
      (Lane.advanceAll callbacks programs ⟨slots, store⟩).2.store
    obtain ⟨hend, hstore⟩ := hhalted.run callbacks more _
    refine ⟨turns ++ more, _, ?_, .inr ⟨hshut, hrests, hend.outcome_eq hrests⟩⟩
    rw [run_append, hrun, hopened]
    exact Prod.ext rfl hstore

/-- Whether some turns of its lanes bring a block to where its run in lane order brings it. -/
def InOrder (callbacks : Callbacks σ α) (programs : List (Lane σ α β)) (machine : Machine σ α) : Prop :=
  ∃ (turns : List Nat) (crew : Crew σ α β),
    (start machine.slots programs).run callbacks machine.store turns =
        (crew, (Block.run callbacks programs machine).2.store) ∧
      (∀ lane, crew.Rests lane) ∧ crew.outcome = (Block.run callbacks programs machine).1

/-- What holds behind the next barrier, if it opens, holds before it. -/
theorem inOrder_of_next {programs : List (Lane σ α β)} (hprograms : programs ≠ []) {machine : Machine σ α}
    (hnext : ∀ next, Block.resumable? (Lane.advanceAll callbacks programs machine).1 = some next →
      InOrder callbacks next (Lane.advanceAll callbacks programs machine).2) :
    InOrder callbacks programs machine := by
  obtain ⟨turns, crew, hrun, hstage⟩ :=
    exists_run_of_stage callbacks hprograms machine.slots machine.store
  unfold InOrder
  rw [Block.run_eq callbacks hprograms]
  rcases hstage with ⟨next, hopens, rfl⟩ | ⟨hshut, hrests, houtcome⟩
  · obtain ⟨more, crew, hmore, hend⟩ := hnext next hopens
    refine ⟨turns ++ more, crew, ?_, ?_⟩
    · rw [run_append, hrun, hopens]
      exact hmore
    · rw [hopens]
      exact hend
  · rw [hshut]
    exact ⟨turns, crew, hrun, hrests, houtcome⟩

/-- If the first lane does not wait, no barrier opens. -/
theorem inOrder_of_halt {first : Lane σ α β} {others : List (Lane σ α β)} {machine : Machine σ α}
    (hhalt : (first.advance callbacks machine).1.next? = none) :
    InOrder callbacks (first :: others) machine := by
  refine inOrder_of_next (List.cons_ne_nil _ _) fun next hopens => ?_
  have hmem : (first.advance callbacks machine).1 ∈
      (Lane.advanceAll callbacks (first :: others) machine).1 := List.mem_cons_self
  rw [Block.resumable?_eq_none hmem hhalt] at hopens
  cases hopens

/-- **Some turns bring a block to where its run in lane order brings it.** -/
theorem inOrder (callbacks : Callbacks σ α) {programs : List (Lane σ α β)} (hprograms : programs ≠ [])
    (machine : Machine σ α) : InOrder callbacks programs machine := by
  cases programs with
  | nil => exact absurd rfl hprograms
  | cons first others =>
    clear hprograms
    -- a barrier that opens takes the first lane further in its program
    induction first generalizing others machine with
    | done result => exact inOrder_of_halt rfl
    | fault panic => exact inOrder_of_halt rfl
    | barrier next ih =>
      refine inOrder_of_next (List.cons_ne_nil _ _) fun programs hopens => ?_
      rcases Block.resumable?_eq_or (Lane.advanceAll callbacks (.barrier next :: others) machine).1 with
        ⟨programs', hopens', hstops⟩ | ⟨hshut, _⟩
      · obtain rfl := Option.some.inj (hopens.symm.trans hopens')
        cases programs with
        | nil => cases hstops
        | cons first rest =>
          obtain rfl : next = first := Stop.waiting.inj (List.cons.inj hstops).1
          exact ih _ rest
      · rw [hshut] at hopens
        cases hopens
    | ask request next ih =>
      cases hperform : machine.perform callbacks request with
      | mk result after =>
        cases result with
        | error panic =>
          refine inOrder_of_halt ?_
          simp only [Lane.advance, Lane.drive, hperform]
          rfl
        | ok answer =>
          obtain ⟨turns, crew, hrun, hend⟩ := ih answer after others
          have hblock : Block.run callbacks (.ask request next :: others) machine =
              Block.run callbacks (next answer :: others) after := by
            simp only [Block.run, Block.runFrom, Lane.drive, hperform]
          have hturn : (start machine.slots (.ask request next :: others)).turn callbacks 0 machine.store =
              (start after.slots (next answer :: others), after.store) := by
            show ((start machine.slots (.ask request next :: others)).answered 0 next
              (machine.perform callbacks request)) = _
            rw [hperform]
            rfl
          unfold InOrder
          rw [hblock]
          refine ⟨0 :: turns, crew, ?_, hend⟩
          rw [← hrun]
          exact congrArg (fun state => state.1.run callbacks state.2 turns) hturn

end Crew

end BlockMachine
