import BlockMachine.Proofs.Interleaving.Panics

/-!
# What the answer of a launch says about its lanes

A launch answers without an error if none of its blocks has a fault.  Whether all lanes have then done
their work hangs on the panics that the lanes raise.

* `Grid.Raises`, `Grid.Finished` — the ends of a lane.
* `Grid.abreast_run` — the lanes of a block hold together in every launch.
* `Grid.tells_run` — what a launch answers, for every kernel, every order of its blocks and whatever turns
  their lanes take.
-/

set_option autoImplicit false

namespace BlockMachine

variable {σ α : Type}

theorem Kernel.length_lanes (kernel : Kernel σ α) (geometry : Geometry) (block : Nat) :
    (kernel.lanes geometry block).length = geometry.threads := by
  rw [lanes, List.length_map, List.length_range]

namespace Grid

/-- A lane of a block has unwound with a panic of its own. -/
def Raises (grid : Grid σ α) (log : List ((Nat × Nat) × Deed σ α)) (block lane : Nat) (panic : Panic) :
    Prop :=
  ∃ crew, grid.crew? block = some crew ∧ crew.Raises (ofBlock block log) lane panic

/-- A lane of a block has come to the normal end of its program. -/
def Finished (grid : Grid σ α) (block lane : Nat) : Prop :=
  ∃ crew, grid.crew? block = some crew ∧ crew.stations[lane]? = some (.finished ())

/-- **The lanes of a block hold together**, in every launch of every kernel. -/
theorem abreast_run (scheduling : Scheduling) (kernel : Kernel σ α) (geometry : Geometry)
    (store : Store α) (places : List (Nat × Nat)) :
    Keeps (fun _ crew log => ∃ segment, Crew.Abreast geometry.threads segment crew log)
      (run scheduling kernel geometry store places)
      (Grid.log scheduling kernel geometry store places) := by
  refine keeps_run ?_ ?_ scheduling store places
  · intro block slots _
    have hstart := Crew.abreast_start slots (kernel.lanes geometry block)
    rw [kernel.length_lanes] at hstart
    exact ⟨0, hstart⟩
  · rintro block lane store crew crew' deed log ⟨segment, habreast⟩ hturn
    exact habreast.turn hturn

variable {scheduling : Scheduling} {kernel : Kernel σ α} {geometry : Geometry} {store : Store α}
  {places : List (Nat × Nat)}

theorem abreast_of_crew? {block : Nat} {crew : Crew σ α Unit}
    (h : (run scheduling kernel geometry store places).crew? block = some crew) :
    ∃ segment, Crew.Abreast geometry.threads segment crew
      (ofBlock block (Grid.log scheduling kernel geometry store places)) := by
  have hkeeps := abreast_run scheduling kernel geometry store places block
  rw [h] at hkeeps
  exact hkeeps

/-- **The fault of a block is a panic of one of its lanes.** -/
theorem raises_of_fault? {block : Nat} {panic : Panic}
    (h : (run scheduling kernel geometry store places).fault? block = some panic) :
    panic.isRelease = false ∧ ∃ lane, Raises (run scheduling kernel geometry store places)
      (Grid.log scheduling kernel geometry store places) block lane panic := by
  obtain ⟨crew, hcrew, hfault⟩ := Option.bind_eq_some_iff.mp h
  obtain ⟨segment, habreast⟩ := abreast_of_crew? hcrew
  obtain ⟨hrelease, lane, hraises⟩ := habreast.raises_of_fault hfault
  exact ⟨hrelease, lane, crew, hcrew, hraises⟩

/-- A launch that has ended, and none of whose blocks has a fault, has run all of them. -/
theorem exists_crew_of_isOver {grid : Grid σ α} (hover : grid.isOver = true)
    (hwell : ∀ block, grid.fault? block = none) {block : Nat} (hblock : block < grid.crews.length) :
    ∃ crew, grid.crew? block = some crew ∧ crew.isOver = true := by
  have hfault : (List.range grid.crews.length).any (fun block => (grid.fault? block).isSome) = false := by
    rw [List.any_eq_false]
    intro block _
    rw [hwell block]
    exact Bool.false_ne_true
  simp only [isOver, hfault, Bool.or_false, Bool.and_eq_true, List.all_eq_true, List.mem_range] at hover
  obtain ⟨crew, hcrew⟩ := Option.isSome_iff_exists.mp (hover.2 block hblock)
  refine ⟨crew, hcrew, ?_⟩
  have hcrewOver := hover.1 block hblock
  rwa [hcrew] at hcrewOver

/-- What the answer of a launch that has ended says about its lanes. -/
structure Tells (geometry : Geometry) (grid : Grid σ α) (log : List ((Nat × Nat) × Deed σ α)) : Prop where
  /-- There is no error exactly if the lanes raise no panic but the release signal of a barrier. -/
  ok : grid.Answers (.ok ()) ↔
    ∀ block lane panic, grid.Raises log block lane panic → panic.isRelease = true
  /-- Without an error all lanes have come to their normal end exactly if none raises that either. -/
  finished : grid.Answers (.ok ()) →
    ((∀ block < geometry.blocks, ∀ lane < geometry.threads, grid.Finished block lane) ↔
      ∀ block lane panic, ¬ grid.Raises log block lane panic)
  /-- An error reports a panic of a lane. -/
  error : ∀ failure, grid.Answers (.error failure) → ∃ block lane panic,
    grid.Raises log block lane panic ∧ panic.isRelease = false ∧
      failure = .error (.kernelFault block panic.report)

/-- **What a launch answers**, for every kernel, every order of its blocks and whatever turns their lanes
take. -/
theorem tells_run (scheduling : Scheduling) (kernel : Kernel σ α) (geometry : Geometry)
    (store : Store α) (places : List (Nat × Nat))
    (hover : (run scheduling kernel geometry store places).isOver = true) :
    Tells geometry (run scheduling kernel geometry store places)
      (Grid.log scheduling kernel geometry store places) := by
  refine ⟨⟨?_, fun hall => .ok fun block => ?_⟩, ?_, ?_⟩
  · rintro ⟨hwell⟩ block lane panic ⟨crew, hcrew, hraises⟩
    obtain ⟨segment, habreast⟩ := abreast_of_crew? hcrew
    have hnone := hwell block
    rw [fault?, hcrew, Option.bind_some] at hnone
    exact habreast.fault_eq_none_iff.mp hnone lane panic hraises
  · cases hfault : (run scheduling kernel geometry store places).fault? block with
    | none => rfl
    | some panic =>
      obtain ⟨hrelease, lane, hraises⟩ := raises_of_fault? hfault
      rw [hall block lane panic hraises] at hrelease
      cases hrelease
  · rintro ⟨hwell⟩
    have hcrews : ∀ block < geometry.blocks, ∃ crew segment,
        (run scheduling kernel geometry store places).crew? block = some crew ∧ crew.isOver = true ∧
          Crew.Abreast geometry.threads segment crew
            (ofBlock block (Grid.log scheduling kernel geometry store places)) := by
      intro block hblock
      have hlength := (orderly_run scheduling kernel geometry store places).length
      obtain ⟨crew, hcrew, hcrewOver⟩ := exists_crew_of_isOver hover hwell (hlength ▸ hblock)
      obtain ⟨segment, habreast⟩ := abreast_of_crew? hcrew
      exact ⟨crew, segment, hcrew, hcrewOver, habreast⟩
    constructor
    · rintro hfinished block lane panic ⟨crew, hcrew, hraises⟩
      have hblock := lt_of_crew? hcrew
      rw [(orderly_run scheduling kernel geometry store places).length] at hblock
      obtain ⟨crew', segment, hcrew', hcrewOver, habreast⟩ := hcrews block hblock
      obtain rfl := Option.some.inj (hcrew.symm.trans hcrew')
      refine (habreast.finished_iff hcrewOver).mp (fun lane hlane => ?_) lane panic hraises
      obtain ⟨crew', hcrew', hstation⟩ := hfinished block hblock lane hlane
      obtain rfl := Option.some.inj (hcrew.symm.trans hcrew')
      exact ⟨(), hstation⟩
    · intro hnone block hblock lane hlane
      obtain ⟨crew, segment, hcrew, hcrewOver, habreast⟩ := hcrews block hblock
      have hfinished := (habreast.finished_iff hcrewOver).mpr fun lane panic hraises =>
        hnone block lane panic ⟨crew, hcrew, hraises⟩
      obtain ⟨result, hstation⟩ := hfinished lane hlane
      exact ⟨crew, hcrew, hstation⟩
  · intro failure hanswer
    cases hanswer with
    | fault block panic hfault =>
      obtain ⟨hrelease, lane, hraises⟩ := raises_of_fault? hfault
      exact ⟨block, lane, panic, hraises, hrelease, rfl⟩

/-! ## A lane that raises the release signal itself -/

/-- The first lane raises the release signal, and the second one writes behind a barrier. -/
def quitter : Kernel Unit Nat where
  slots _ := .ok #[]
  program context :=
    if context.lane = 0 then .fault (.raised .barrierPoisoned)
    else .barrier (.ask (.write 0 1) fun _ => .done ())
  callbacks := ⟨fun _ _ => .ok (), fun _ _ => .ok (), .cloned 1⟩

/-- The launch answers without an error, and its second lane has not written. -/
theorem tells_run_quitter :
    let config : LaunchConfig := { threadsPerBlock := 2, multiprocessors := 1 }
    let grid := run .parallel quitter ⟨1, 2, true⟩ ⟨#[0], .start 0⟩ [(0, 0), (0, 1), (0, 0), (0, 1)]
    grid.isOver = true ∧ grid.Answers (.ok ()) ∧ ¬ (∀ block < 1, ∀ lane < 2, grid.Finished block lane) ∧
      (launch config quitter 1 2 ⟨#[0], .start 0⟩).1 = .ok () ∧
      (launch config quitter 1 2 ⟨#[0], .start 0⟩).2.output = #[0] := by
  intro config grid
  have hover : grid.isOver = true := by decide
  have hok : grid.Answers (.ok ()) := by
    refine .ok fun block => ?_
    cases block with
    | zero => decide
    | succ block => rfl
  have htells := tells_run .parallel quitter ⟨1, 2, true⟩ ⟨#[0], .start 0⟩
    [(0, 0), (0, 1), (0, 0), (0, 1)] hover
  refine ⟨hover, hok, fun hall => ?_, by decide, by decide⟩
  exact (htells.finished hok).mp hall 0 0 (.raised .barrierPoisoned)
    ⟨_, rfl, rfl, [], .ends, rfl, rfl⟩

end Grid

end BlockMachine
