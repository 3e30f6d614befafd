import BlockMachine.Proofs.Launch.Intervals

/-!
# Launches on a host that cannot start every lane

The lanes of a block wait for each other before they do anything.  If the host cannot start one of them then the
block does nothing, and the launch ends there.

* `runBlockOn_of_refusal`, `runBlockOn_of_none` — a block hangs on its own lanes alone.
* `runBlocksOn_cases`, `launchOn_cases` — a launch is what it is where every lane is started, or stops behind blocks
  that have ended well.
-/

set_option autoImplicit false

namespace BlockMachine

variable {σ α : Type} {spawner : Spawner} {kernel : Kernel σ α} {geometry : Geometry} {block : Nat}

/-- A block does nothing if the host cannot start all of its lanes. -/
theorem runBlockOn_of_refusal {slots : Array σ} (hslots : kernel.slots geometry.threads = .ok slots)
    {cause : String} (h : spawner.refusal? geometry.threads block = some cause) (store : Store α) :
    runBlockOn spawner kernel geometry block store = (.error (.error (.launchFailed block cause)), store) := by
  simp only [runBlockOn, hslots, h]

/-- Otherwise it does what it does where every lane is started. -/
theorem runBlockOn_of_none (h : spawner.refusal? geometry.threads block = none) (store : Store α) :
    runBlockOn spawner kernel geometry block store = runBlock kernel geometry block store := by
  rw [runBlock_def, runBlockOn, h]

/-- What a launch leaves that stops at a block because the host cannot start all of its lanes: the blocks before that
one in the order have ended well, and no other block has done anything. -/
structure StopsAt (spawner : Spawner) (kernel : Kernel σ α) (geometry : Geometry) (order : List Nat)
    (before : Store α) (block : Nat) (cause : String) (after : Store α) : Prop where
  refusal : spawner.refusal? geometry.threads block = some cause
  ended : ∃ done rest, order = done ++ block :: rest ∧
    runBlocks kernel geometry done before = (.ok (), after)

/-- **The blocks of a launch** do what they do where every lane is started, or some of them do and then the launch
stops. -/
theorem runBlocksOn_cases {slots : Array σ} (hslots : kernel.slots geometry.threads = .ok slots)
    (spawner : Spawner) (order : List Nat) (store : Store α) :
    runBlocksOn spawner kernel geometry order store = runBlocks kernel geometry order store ∨
      ∃ block cause after, StopsAt spawner kernel geometry order store block cause after ∧
        runBlocksOn spawner kernel geometry order store =
          (.error (.error (.launchFailed block cause)), after) := by
  induction order generalizing store with
  | nil => exact .inl rfl
  | cons block rest ih =>
    cases hrefusal : spawner.refusal? geometry.threads block with
    | some cause =>
      refine .inr ⟨block, cause, store, ⟨hrefusal, [], rest, rfl, rfl⟩, ?_⟩
      rw [runBlocksOn, runBlockOn_of_refusal hslots hrefusal]
    | none =>
      rw [runBlocksOn, runBlockOn_of_none hrefusal, runBlocks_cons]
      cases hblock : runBlock kernel geometry block store with
      | mk result after =>
        cases result with
        | error failure => exact .inl rfl
        | ok _ =>
          refine (ih after).imp_right ?_
          rintro ⟨other, cause, last, ⟨hother, done, tail, rfl, hdone⟩, hstops⟩
          refine ⟨other, cause, last, ⟨hother, block :: done, tail, rfl, ?_⟩, hstops⟩
          rw [runBlocks_cons, hblock]
          exact hdone

/-- **A launch** does what it does where every lane is started, or some of its blocks do and then it stops. -/
theorem launchOn_cases {config : LaunchConfig} {blocks : Nat} {slots : Array σ}
    (hslots : kernel.slots config.width = .ok slots) (spawner : Spawner) (order : Nat → List Nat)
    (store : Store α) :
    launchOn spawner order config kernel blocks config.width store =
        launchInOrder order config kernel blocks config.width store ∨
      ∃ block cause after, StopsAt spawner kernel (config.geometry blocks) (order blocks)
          (store.launched config blocks) block cause after ∧
        launchOn spawner order config kernel blocks config.width store =
          (.error (.error (.launchFailed block cause)), after) := by
  rw [launchInOrder_def, launchOn]
  cases config.validate with
  | error problem => exact .inl rfl
  | ok _ =>
    simp only
    by_cases hwidth : config.width = 0 ∨ maxThreadsPerBlock < config.width
    · rw [if_pos hwidth, if_pos hwidth]
      exact .inl rfl
    · rw [if_neg hwidth, if_neg hwidth]
      by_cases hblocks : blocks = 0
      · rw [if_pos hblocks, if_pos hblocks]
        exact .inl rfl
      · rw [if_neg hblocks, if_neg hblocks]
        exact runBlocksOn_cases hslots spawner (order blocks) (store.launched config blocks)

end BlockMachine
