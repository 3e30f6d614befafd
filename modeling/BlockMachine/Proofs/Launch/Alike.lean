import BlockMachine.Proofs.Interleaving.InOrder
import BlockMachine.Proofs.Lane.Only

/-!
# Code that differs where nobody looks

Two launches may be given different code of the caller.  If their lanes make only requests to which both pieces of
code give the same answer, then the launches cannot be told apart: neither by what they answer and leave, nor by
any single turn of a lane.

* `Callbacks.AlikeOn` — code that does the same on certain requests.
* `Lane.Only.advance_alike`, `Block.run_alike` — the run of a lane up to its stop, and that of a block.
* `launchInOrder_alike` — a launch in any order of its blocks.
* `Grid.run_alike`, `Grid.log_alike` — a launch whose lanes take turns in any order.
-/

set_option autoImplicit false

namespace BlockMachine

variable {σ α β : Type} {allowed : Request σ α → Prop} {callbacks others : Callbacks σ α}

/-- Code of the caller that does the same as other code on certain requests. -/
def Callbacks.AlikeOn (allowed : Request σ α → Prop) (callbacks others : Callbacks σ α) : Prop :=
  ∀ request, allowed request → ∀ machine : Machine σ α,
    machine.perform others request = machine.perform callbacks request

/-- Code that gives the same first items is alike on all requests for no other item. -/
theorem Callbacks.alikeOn_below {fetch : Nat → Nat → Except Panic σ} {total : Nat}
    (h : ∀ index < total, ∀ earlier, fetch index earlier = callbacks.fetch index earlier) :
    AlikeOn (Request.Below total) callbacks { callbacks with fetch := fetch } := by
  intro request hbelow machine
  cases request with
  | fetch index => simp only [Machine.perform, h index (hbelow index rfl)]
  | _ => rfl

/-! ## Blocks in lane order -/

namespace Lane

variable (halike : callbacks.AlikeOn allowed others)

include halike

/-- A lane runs to the same stop. -/
theorem Only.advance_alike {program : Lane σ α β} (h : program.Only allowed) (machine : Machine σ α) :
    program.advance others machine = program.advance callbacks machine := by
  unfold Lane.advance
  induction program generalizing machine with
  | done _ => rfl
  | fault _ => rfl
  | barrier _ _ => rfl
  | ask request next ih =>
    simp only [drive]
    rw [halike request h.1]
    cases machine.perform callbacks request with
    | mk result after =>
      cases result with
      | ok answer => exact ih answer (h.2 answer) after
      | error _ => rfl

theorem advanceAll_alike {lanes : List (Lane σ α β)} (h : ∀ lane ∈ lanes, lane.Only allowed)
    (machine : Machine σ α) :
    advanceAll others lanes machine = advanceAll callbacks lanes machine := by
  induction lanes generalizing machine with
  | nil => rfl
  | cons lane rest ih =>
    obtain ⟨hlane, hrest⟩ := List.forall_mem_cons.mp h
    simp only [advanceAll]
    rw [hlane.advance_alike halike, ih hrest]

end Lane

/-- Lanes that stop make only such requests from then on. -/
theorem Lane.only_advanceAll (callbacks : Callbacks σ α) {lanes : List (Lane σ α β)}
    (h : ∀ lane ∈ lanes, lane.Only allowed) (machine : Machine σ α) :
    ∀ stop ∈ (advanceAll callbacks lanes machine).1, stop.Only allowed := by
  induction lanes generalizing machine with
  | nil => exact fun _ hstop => absurd hstop List.not_mem_nil
  | cons lane rest ih =>
    obtain ⟨hlane, hrest⟩ := List.forall_mem_cons.mp h
    exact List.forall_mem_cons.mpr ⟨hlane.advance machine, ih hrest _⟩

namespace Block

variable (halike : callbacks.AlikeOn allowed others)

include halike

/-- A block runs in the same way. -/
theorem runFrom_alike {first : Lane σ α β} (hfirst : first.Only allowed) (machine : Machine σ α)
    {lanes : List (Lane σ α β)} (hlanes : ∀ lane ∈ lanes, lane.Only allowed) :
    runFrom others first machine lanes = runFrom callbacks first machine lanes := by
  have hconclude : ∀ {lanes : List (Lane σ α β)}, (∀ lane ∈ lanes, lane.Only allowed) →
      ∀ stop machine, conclude others stop lanes machine = conclude callbacks stop lanes machine := by
    intro lanes hlanes stop machine
    unfold conclude
    rw [Lane.advanceAll_alike halike hlanes]
  induction first generalizing machine lanes with
  | done _ => exact hconclude hlanes _ machine
  | fault _ => exact hconclude hlanes _ machine
  | barrier next ih =>
    have hstops := Lane.only_advanceAll callbacks hlanes machine
    simp only [runFrom, Lane.drive, meet]
    rw [Lane.advanceAll_alike halike hlanes]
    rcases resumable?_eq_or (Lane.advanceAll callbacks lanes machine).1 with
      ⟨later, hlater, hwaiting⟩ | ⟨hshut, _⟩
    · rw [hlater]
      refine ih hfirst _ fun lane hlane => ?_
      exact hstops (.waiting lane) (hwaiting ▸ List.mem_map_of_mem hlane)
    · rw [hshut]
  | ask request next ih =>
    simp only [runFrom, Lane.drive]
    rw [halike request hfirst.1]
    cases machine.perform callbacks request with
    | mk result after =>
      cases result with
      | ok answer => exact ih answer (hfirst.2 answer) after hlanes
      | error _ => exact hconclude hlanes _ after

theorem run_alike {lanes : List (Lane σ α β)} (h : ∀ lane ∈ lanes, lane.Only allowed)
    (machine : Machine σ α) : run others lanes machine = run callbacks lanes machine := by
  cases lanes with
  | nil => rfl
  | cons first rest =>
    obtain ⟨hfirst, hrest⟩ := List.forall_mem_cons.mp h
    exact runFrom_alike halike hfirst machine hrest

end Block

/-! ## Launches -/

/-- A lane under way that makes only certain requests from now on. -/
def Station.Only (allowed : Request σ α → Prop) : Station σ α β → Prop
  | running program | arrived program => program.Only allowed
  | finished _ | unwound _ => True

/-- It goes on to do so. -/
theorem Station.Only.move {station station' : Station σ α β} {deeds : List (Deed σ α)}
    (h : station.Only allowed) (hmove : Crew.Move callbacks station deeds station') :
    station'.Only allowed := by
  cases hmove with
  | asks next hanswer => exact h.2 _
  | _ => first | exact h | trivial

/-- A turn of a lane does the same. -/
theorem Crew.turn_alike (halike : callbacks.AlikeOn allowed others) {crew : Crew σ α β}
    (h : ∀ station ∈ crew.stations, station.Only allowed) (lane : Nat) (store : Store α) :
    crew.turn others lane store = crew.turn callbacks lane store := by
  unfold turn
  cases hstation : crew.stations[lane]? with
  | none => rfl
  | some station =>
    have honly := h station (List.mem_of_getElem? hstation)
    match station, honly with
    | .running (.done _), _ => rfl
    | .running (.fault _), _ => rfl
    | .running (.barrier _), _ => rfl
    | .running (.ask request next), honly => simp only [halike request honly.1]
    | .arrived _, _ => rfl
    | .finished _, _ => rfl
    | .unwound _, _ => rfl

section Launches

variable {kernel : Kernel σ α} {geometry : Geometry} {code : Callbacks σ α}
  (halike : kernel.callbacks.AlikeOn allowed code)

include halike

theorem runBlock_alike {block : Nat}
    (honly : ∀ lane < geometry.threads, (kernel.program (geometry.context block lane)).Only allowed)
    (store : Store α) :
    runBlock { kernel with callbacks := code } geometry block store =
      runBlock kernel geometry block store := by
  have hlanes : ∀ lane ∈ kernel.lanes geometry block, lane.Only allowed := by
    intro program hprogram
    obtain ⟨lane, hlane, rfl⟩ := List.mem_map.mp hprogram
    exact honly lane (List.mem_range.mp hlane)
  rw [runBlock_def, runBlock_def]
  cases kernel.slots geometry.threads with
  | error _ => rfl
  | ok slots =>
    have hrun := Block.run_alike halike hlanes ⟨slots, store⟩
    simp only [← hrun]
    rfl

theorem runBlocks_alike
    (honly : ∀ block, ∀ lane < geometry.threads,
      (kernel.program (geometry.context block lane)).Only allowed) (order : List Nat) (store : Store α) :
    runBlocks { kernel with callbacks := code } geometry order store =
      runBlocks kernel geometry order store := by
  induction order generalizing store with
  | nil => rfl
  | cons block rest ih =>
    rw [runBlocks_cons, runBlocks_cons, runBlock_alike halike (honly block)]
    simp only [ih]

/-- **A launch answers and leaves the same**, in any order of its blocks. -/
theorem launchInOrder_alike {config : LaunchConfig} {blocks threads : Nat}
    (honly : ∀ block, ∀ lane < threads,
      (kernel.program ((⟨blocks, threads, config.capability.supportsWideCopy⟩ : Geometry).context block
        lane)).Only allowed) (order : Nat → List Nat) (store : Store α) :
    launchInOrder order config { kernel with callbacks := code } blocks threads store =
      launchInOrder order config kernel blocks threads store := by
  rw [launchInOrder_def, launchInOrder_def, runBlocks_alike halike honly]

end Launches

namespace Grid

variable {scheduling : Scheduling} {kernel : Kernel σ α} {geometry : Geometry} {code : Callbacks σ α}

/-- All lanes of all blocks that have begun make only certain requests from now on. -/
def Only (allowed : Request σ α → Prop) (grid : Grid σ α) : Prop :=
  ∀ block crew, grid.crew? block = some crew → ∀ station ∈ crew.stations, station.Only allowed

/-- They go on to do so. -/
theorem Only.turn {grid : Grid σ α} (h : grid.Only allowed)
    (honly : ∀ block, ∀ lane < geometry.threads,
      (kernel.program (geometry.context block lane)).Only allowed) (place : Nat × Nat) :
    (grid.turn scheduling kernel geometry place).Only allowed := by
  intro block crew hcrew station hstation
  by_cases he : place.1 = block
  · subst he
    cases hold : grid.crew? place.1 with
    | some old =>
      rw [crew?_turn_of_some scheduling hold] at hcrew
      obtain rfl := Option.some.inj hcrew
      obtain ⟨lane, hlane⟩ := List.getElem?_of_mem hstation
      obtain ⟨before, hbefore, hmove⟩ :=
        (Crew.turn_spec kernel.callbacks old place.2 grid.store).move hlane
      exact (h _ old hold before (List.mem_of_getElem? hbefore)).move hmove
    | none =>
      rcases crew?_turn_of_none scheduling kernel geometry hold with
        hnone | ⟨_, slots, _, hsome⟩
      · rw [hnone] at hcrew
        cases hcrew
      · obtain rfl := Option.some.inj (hsome.symm.trans hcrew)
        obtain ⟨program, hprogram, rfl⟩ := List.mem_map.mp hstation
        obtain ⟨lane, hlane, rfl⟩ := List.mem_map.mp hprogram
        exact honly _ lane (List.mem_range.mp hlane)
  · rw [crew?_turn_of_ne scheduling he] at hcrew
    exact h block crew hcrew station hstation

theorem only_start (geometry : Geometry) (store : Store α) : (start geometry store : Grid σ α).Only allowed := by
  intro block crew hcrew
  rw [crew?_start] at hcrew
  cases hcrew

variable (halike : kernel.callbacks.AlikeOn allowed code)
  (honly : ∀ block, ∀ lane < geometry.threads,
    (kernel.program (geometry.context block lane)).Only allowed)

include halike

theorem turn_alike {grid : Grid σ α} (h : grid.Only allowed) (place : Nat × Nat) :
    grid.turn scheduling { kernel with callbacks := code } geometry place =
      grid.turn scheduling kernel geometry place := by
  unfold turn
  cases hcrew : grid.crew? place.1 with
  | none => rfl
  | some crew => simp only [Crew.turn_alike halike (h _ crew hcrew)]

include honly

/-- **A launch comes to the same**, whatever turns its lanes take. -/
theorem run_alike (store : Store α) (places : List (Nat × Nat)) :
    run scheduling { kernel with callbacks := code } geometry store places =
      run scheduling kernel geometry store places := by
  have hturns : ∀ (places : List (Nat × Nat)) (grid : Grid σ α), grid.Only allowed →
      places.foldl (turn scheduling { kernel with callbacks := code } geometry) grid =
        places.foldl (turn scheduling kernel geometry) grid := by
    intro places
    induction places with
    | nil => exact fun _ _ => rfl
    | cons place rest ih =>
      intro grid h
      rw [List.foldl_cons, List.foldl_cons, turn_alike halike h]
      exact ih _ (h.turn honly place)
  exact hturns places _ (only_start geometry store)

/-- **and its lanes do the same** on the way. -/
theorem log_alike (store : Store α) (places : List (Nat × Nat)) :
    log scheduling { kernel with callbacks := code } geometry store places =
      log scheduling kernel geometry store places := by
  have hlogs : ∀ (places : List (Nat × Nat)) (grid : Grid σ α), grid.Only allowed →
      logFrom scheduling { kernel with callbacks := code } geometry grid places =
        logFrom scheduling kernel geometry grid places := by
    intro places
    induction places with
    | nil => exact fun _ _ => rfl
    | cons place rest ih =>
      intro grid h
      unfold logFrom
      rw [turn_alike halike h, ih _ (h.turn honly place)]
  exact hlogs places _ (only_start geometry store)

end Grid

end BlockMachine
