import BlockMachine.Proofs.Interleaving.InOrder
import BlockMachine.Proofs.Launch.Answers

/-!
# The order of a launch is one of the orders

`launch` runs the blocks one after the other, and their lanes in lane order.  The lanes of a launch can take
their turns so that it comes to the same.

* `Crew.Concludes`, `Grid.Concludes` — how a block, or a launch, has come to a result.
* `Grid.exists_turns_of_block` — some turns bring a block to the result of `runBlock`.
* `Grid.exists_run_launch` — so some turns bring a launch to the result of `launch`.
-/

set_option autoImplicit false

namespace BlockMachine

variable {σ α : Type}

/-- How a block has come to a result; a fault goes to the log. -/
inductive Crew.Concludes (crew : Crew σ α Unit) (block : Nat) (store : Store α) :
    Except Failure Unit × Store α → Prop
  | ok (hover : crew.isOver = true) (h : crew.fault = none) : Concludes crew block store (.ok (), store)
  | fault {panic : Panic} (hover : crew.isOver = true) (h : crew.fault = some panic) :
    Concludes crew block store (.error (.error (.kernelFault block panic.report)),
      { store with journal := store.journal.note (.blockFaulted block panic.report) })
  /-- Some lanes wait for others, which have ended. -/
  | deadlock (hrests : ∀ lane, crew.Rests lane) (hlive : crew.isOver = false) :
    Concludes crew block store (.error .deadlock, store)

/-- **A block at a standstill comes to the result of `runBlock`**, if that ends as it does. -/
theorem Crew.concludes_runBlock {kernel : Kernel σ α} {geometry : Geometry} {block : Nat} {slots : Array σ}
    {store : Store α} {crew : Crew σ α Unit} (hslots : kernel.slots geometry.threads = .ok slots)
    (hrests : ∀ lane, crew.Rests lane)
    (houtcome : crew.outcome =
      (Block.run kernel.callbacks (kernel.lanes geometry block) ⟨slots, store⟩).1) :
    crew.Concludes block
      (Block.run kernel.callbacks (kernel.lanes geometry block) ⟨slots, store⟩).2.store
      (runBlock kernel geometry block store) := by
  simp only [runBlock_def, hslots]
  cases hrun : Block.run kernel.callbacks (kernel.lanes geometry block) ⟨slots, store⟩ with
  | mk result machine =>
    obtain rfl : crew.outcome = result := by rw [houtcome, hrun]
    simp only
    unfold Crew.outcome
    by_cases hover : crew.isOver = true
    · simp only [if_pos hover]
      unfold ending
      cases hfault : crew.fault with
      | some panic => exact .fault hover hfault
      | none => cases crew.poisoned <;> exact .ok hover hfault
    · simp only [if_neg hover]
      exact .deadlock hrests (Bool.eq_false_iff.mpr hover)

namespace Grid

variable {scheduling : Scheduling} {kernel : Kernel σ α} {geometry : Geometry} {grid : Grid σ α}

/-- **Some turns bring a block to the result of its run in lane order.** -/
theorem exists_turns_of_block {block : Nat} (hblock : block < grid.crews.length)
    (hnone : grid.crew? block = none) (hmay : grid.mayBegin scheduling block = true) {slots : Array σ}
    (hslots : kernel.slots geometry.threads = .ok slots) (hthreads : 0 < geometry.threads) :
    ∃ (places : List (Nat × Nat)) (crew : Crew σ α Unit) (store : Store α),
      grid.turns scheduling kernel geometry places = ⟨grid.crews.set block (some crew), store⟩ ∧
        crew.Concludes block store (runBlock kernel geometry block grid.store) := by
  have hlanes : kernel.lanes geometry block ≠ [] := by
    rw [← List.length_pos_iff, kernel.length_lanes]
    exact hthreads
  obtain ⟨turns, crew, hrun, hrests, houtcome⟩ :=
    Crew.inOrder kernel.callbacks hlanes ⟨slots, grid.store⟩
  -- the first turn begins the block
  have hbegun : grid.turn scheduling kernel geometry (block, 0) =
      ⟨grid.crews.set block (some (Crew.start slots (kernel.lanes geometry block))), grid.store⟩ := by
    unfold Grid.turn
    rw [hnone]
    show (if grid.mayBegin scheduling block = true then grid.begun kernel geometry block else grid) = _
    rw [if_pos hmay, Grid.begun, hslots]
  have hcrew := crew?_set grid grid.store hblock (Crew.start slots (kernel.lanes geometry block)) block
  rw [if_pos rfl, ← hbegun] at hcrew
  refine ⟨(block, 0) :: turns.map fun lane => (block, lane), crew, _, ?_,
    Crew.concludes_runBlock hslots hrests houtcome⟩
  show (grid.turn scheduling kernel geometry (block, 0)).turns scheduling kernel geometry _ = _
  rw [turns_of_block scheduling hcrew turns, hbegun, List.set_set, hrun]

/-- How a launch has come to a result; a fault goes to the log. -/
inductive Concludes (kernel : Kernel σ α) (geometry : Geometry) (grid : Grid σ α) :
    Except Failure Unit × Store α → Prop
  | ok (hover : grid.isOver = true) (h : ∀ block, grid.fault? block = none) :
    Concludes kernel geometry grid (.ok (), grid.store)
  | fault {block : Nat} {panic : Panic} (hover : grid.isOver = true)
    (h : grid.fault? block = some panic) :
    Concludes kernel geometry grid (.error (.error (.kernelFault block panic.report)),
      { grid.store with journal := grid.store.journal.note (.blockFaulted block panic.report) })
  /-- Some lanes of a block wait for others, which have ended. -/
  | deadlock {block : Nat} {crew : Crew σ α Unit} (hcrew : grid.crew? block = some crew)
    (hrests : ∀ lane, crew.Rests lane) (hlive : crew.isOver = false) :
    Concludes kernel geometry grid (.error .deadlock, grid.store)
  /-- The slots of a block cannot be had. -/
  | panic {panic : Panic} (h : kernel.slots geometry.threads = .error panic) :
    Concludes kernel geometry grid (.error (.panic panic), grid.store)

theorem isDone_iff {block : Nat} : grid.isDone block = true ↔
    ∃ crew, grid.crew? block = some crew ∧ crew.isOver = true ∧ crew.fault = none := by
  unfold isDone
  cases grid.crew? block with
  | none => simp
  | some crew => simp

/-- A launch is over when the blocks that have begun are, and all have begun or one has a fault. -/
theorem isOver_iff : grid.isOver = true ↔
    (∀ block < grid.crews.length, ∀ crew, grid.crew? block = some crew → crew.isOver = true) ∧
      ((∀ block < grid.crews.length, (grid.crew? block).isSome = true) ∨
        ∃ block < grid.crews.length, (grid.fault? block).isSome = true) := by
  simp only [isOver, Bool.and_eq_true, Bool.or_eq_true, List.all_eq_true, List.any_eq_true,
    List.mem_range, Option.all_eq_true]

/-- A launch whose blocks run one after the other: some are done, and the others have not begun. -/
structure Passed (geometry : Geometry) (grid : Grid σ α) (done rest : List Nat) : Prop where
  length : grid.crews.length = geometry.blocks
  blocks : (done ++ rest).Perm (List.range geometry.blocks)
  done : ∀ block ∈ done, grid.isDone block = true
  fresh : ∀ block ∈ rest, grid.crew? block = none

namespace Passed

variable {done rest : List Nat} {block : Nat} {crew : Crew σ α Unit} {store : Store α}

theorem mem (h : Passed geometry grid done rest) (hblock : block < grid.crews.length) :
    block ∈ done ++ rest :=
  h.blocks.mem_iff.mpr (List.mem_range.mpr (h.length ▸ hblock))

theorem lt (h : Passed geometry grid done (block :: rest)) : block < grid.crews.length := by
  rw [h.length, ← List.mem_range, ← h.blocks.mem_iff]
  exact List.mem_append_right _ List.mem_cons_self

/-- The next block takes no other one further. -/
theorem crew?_of_mem (h : Passed geometry grid done (block :: rest)) (crew : Crew σ α Unit)
    (store : Store α) {other : Nat} (hother : other ∈ done ++ rest) :
    crew? ⟨grid.crews.set block (some crew), store⟩ other = grid.crew? other := by
  have hnodup := h.blocks.nodup_iff.mpr List.nodup_range
  have hnot : block ∉ done ++ rest := (List.nodup_cons.mp (List.nodup_middle.mp hnodup)).1
  rw [crew?_set grid store h.lt, if_neg]
  rintro rfl
  exact hnot hother

/-- The next block is done. -/
theorem next (h : Passed geometry grid done (block :: rest)) (hover : crew.isOver = true)
    (hfault : crew.fault = none) :
    Passed geometry ⟨grid.crews.set block (some crew), store⟩ (done ++ [block]) rest := by
  refine ⟨(List.length_set ..).trans h.length, ?_, fun other hother => ?_, fun other hother => ?_⟩
  · rw [List.append_assoc]
    exact h.blocks
  · rcases List.mem_append.mp hother with hother | hother
    · unfold isDone
      rw [h.crew?_of_mem crew store (List.mem_append_left _ hother)]
      exact h.done other hother
    · obtain rfl := List.mem_singleton.mp hother
      exact isDone_iff.mpr
        ⟨crew, (crew?_set grid store h.lt crew other).trans (if_pos rfl), hover, hfault⟩
  · rw [h.crew?_of_mem crew store (List.mem_append_right _ hother)]
    exact h.fresh other (List.mem_cons_of_mem _ hother)

/-- The next block has a fault, and the launch is over. -/
theorem isOver_of_fault (h : Passed geometry grid done (block :: rest)) (hover : crew.isOver = true)
    {panic : Panic} (hfault : crew.fault = some panic) :
    isOver ⟨grid.crews.set block (some crew), store⟩ = true ∧
      fault? ⟨grid.crews.set block (some crew), store⟩ block = some panic := by
  have hself : crew? ⟨grid.crews.set block (some crew), store⟩ block = some crew :=
    (crew?_set grid store h.lt crew block).trans (if_pos rfl)
  have hfault? : fault? ⟨grid.crews.set block (some crew), store⟩ block = some panic := by
    rw [fault?, hself, Option.bind_some, hfault]
  refine ⟨isOver_iff.mpr ⟨fun other hother crew' hcrew' => ?_, .inr ⟨block, ?_, ?_⟩⟩, hfault?⟩
  · rw [List.length_set] at hother
    rcases List.mem_append.mp (h.mem hother) with hmem | hmem
    · obtain ⟨early, hearly, hover', _⟩ := isDone_iff.mp (h.done other hmem)
      rw [h.crew?_of_mem crew store (List.mem_append_left _ hmem), hearly] at hcrew'
      obtain rfl := Option.some.inj hcrew'
      exact hover'
    · rcases List.mem_cons.mp hmem with rfl | hmem
      · rw [hself] at hcrew'
        obtain rfl := Option.some.inj hcrew'
        exact hover
      · rw [h.crew?_of_mem crew store (List.mem_append_right _ hmem),
          h.fresh other (List.mem_cons_of_mem _ hmem)] at hcrew'
        cases hcrew'
  · rw [List.length_set]
    exact h.lt
  · rw [hfault?]
    rfl

/-- All blocks are done, and the launch is over. -/
theorem isOver_of_done (h : Passed geometry grid done []) :
    grid.isOver = true ∧ ∀ block, grid.fault? block = none := by
  have hall : ∀ block < grid.crews.length, ∃ crew, grid.crew? block = some crew ∧
      crew.isOver = true ∧ crew.fault = none := by
    intro block hblock
    have hmem := h.mem hblock
    rw [List.append_nil] at hmem
    exact isDone_iff.mp (h.done block hmem)
  refine ⟨isOver_iff.mpr ⟨fun block hblock crew hcrew => ?_, .inl fun block hblock => ?_⟩,
    fun block => ?_⟩
  · obtain ⟨crew', hcrew', hover, _⟩ := hall block hblock
    obtain rfl := Option.some.inj (hcrew.symm.trans hcrew')
    exact hover
  · obtain ⟨crew, hcrew, _⟩ := hall block hblock
    exact Option.isSome_iff_exists.mpr ⟨crew, hcrew⟩
  · unfold fault?
    cases hcrew : grid.crew? block with
    | none => rfl
    | some crew =>
      obtain ⟨crew', hcrew', _, hfault⟩ := hall block (lt_of_crew? hcrew)
      obtain rfl := Option.some.inj (hcrew.symm.trans hcrew')
      exact hfault

end Passed

/-- **Some turns bring the blocks that have not begun to the result of `runBlocks`.** -/
theorem Passed.exists_turns {done rest : List Nat} (h : Passed geometry grid done rest)
    (hadmits : scheduling = .parallel ∨ scheduling.order geometry.blocks = done ++ rest)
    (hthreads : 0 < geometry.threads) :
    ∃ places, Concludes kernel geometry (grid.turns scheduling kernel geometry places)
      (runBlocks kernel geometry rest grid.store) := by
  induction rest generalizing grid done with
  | nil =>
    obtain ⟨hover, hwell⟩ := h.isOver_of_done
    exact ⟨[], .ok hover hwell⟩
  | cons block rest ih =>
    have hmay : grid.mayBegin scheduling block = true := by
      rcases hadmits with rfl | horder
      · rfl
      · exact mayBegin_of_done (h.length ▸ horder) h.done
    rw [runBlocks_cons]
    cases hslots : kernel.slots geometry.threads with
    | error panic =>
      refine ⟨[], ?_⟩
      simp only [runBlock_def, hslots]
      exact .panic hslots
    | ok slots =>
      obtain ⟨places, crew, store, hturns, hconcludes⟩ :=
        exists_turns_of_block h.lt (h.fresh block List.mem_cons_self) hmay hslots hthreads
      generalize runBlock kernel geometry block grid.store = result at hconcludes ⊢
      cases hconcludes with
      | ok hover hfault =>
        obtain ⟨more, hmore⟩ := ih (h.next hover hfault)
          (hadmits.imp_right fun horder => horder.trans (List.append_cons ..))
        refine ⟨places ++ more, ?_⟩
        rw [turns_append, hturns]
        exact hmore
      | fault hover hfault =>
        obtain ⟨hgrid, hfault?⟩ := h.isOver_of_fault hover hfault
        refine ⟨places, ?_⟩
        rw [hturns]
        exact .fault hgrid hfault?
      | deadlock hrests hlive =>
        refine ⟨places, ?_⟩
        rw [hturns]
        exact .deadlock ((crew?_set grid store h.lt crew block).trans (if_pos rfl)) hrests hlive

/-- **Some turns of its lanes bring a launch to its result**, in whatever order of the blocks that its
scheduling admits. -/
theorem exists_run_launch {config : LaunchConfig} {order : Nat → List Nat} {blocks threads : Nat}
    (hvalid : config.validate = .ok ()) (hthreads : 0 < threads) (hmax : threads ≤ maxThreadsPerBlock)
    (hblocks : 0 < blocks) (horder : (order blocks).Perm (List.range blocks))
    (hadmits : config.scheduling = .parallel ∨ config.scheduling.order blocks = order blocks)
    (kernel : Kernel σ α) (store : Store α) :
    let geometry : Geometry := ⟨blocks, threads, config.capability.supportsWideCopy⟩
    let record := Record.launch blocks threads config.scheduling config.capability
    ∃ places, Concludes kernel geometry
      (run config.scheduling kernel geometry { store with journal := store.journal.note record } places)
      (launchInOrder order config kernel blocks threads store) := by
  intro geometry record
  have hstart : Passed geometry
      (start geometry { store with journal := store.journal.note record } : Grid σ α) []
      (order blocks) := by
    refine ⟨List.length_replicate, horder, fun _ h => absurd h List.not_mem_nil, fun block hblock => ?_⟩
    have hlt : block < blocks := List.mem_range.mp (horder.mem_iff.mp hblock)
    simp [crew?, start, geometry, hlt]
  have hlaunch : launchInOrder order config kernel blocks threads store =
      runBlocks kernel geometry (order blocks)
        { store with journal := store.journal.note record } := by
    rw [launchInOrder_def, hvalid]
    simp only
    rw [if_neg (by omega), if_neg (by omega)]
  rw [hlaunch]
  exact hstart.exists_turns hadmits hthreads

end Grid

end BlockMachine
