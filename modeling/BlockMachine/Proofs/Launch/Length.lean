import BlockMachine.Launch
import BlockMachine.Proofs.Lane.Segment
import BlockMachine.Proofs.Memory.Pieces

/-!
# The length of the destination

No request changes how many elements the destination has, and so no launch does, whatever its kernel is and
however it ends.

* `Block.size_run` — the run of a block.
* `size_launchInOrder` — a launch.
-/

set_option autoImplicit false

namespace BlockMachine

variable {σ α β : Type}

theorem Machine.size_perform (callbacks : Callbacks σ α) (request : Request σ α) (machine : Machine σ α) :
    (machine.perform callbacks request).2.store.output.size = machine.store.output.size := by
  rw [Machine.perform_eq]
  exact Request.size_leave ..

theorem Lane.size_advanceAll (callbacks : Callbacks σ α) (lanes : List (Lane σ α β))
    (machine : Machine σ α) :
    (advanceAll callbacks lanes machine).2.store.output.size = machine.store.output.size := by
  induction lanes generalizing machine with
  | nil => rfl
  | cons lane rest ih =>
    have hlane : (lane.advance callbacks machine).2.store.output.size = machine.store.output.size := by
      rw [advance_eq]
      exact Store.size_after ..
    exact (ih _).trans hlane

/-- The run of a block by its first lane. -/
theorem Block.size_runFrom (callbacks : Callbacks σ α) (first : Lane σ α β) (machine : Machine σ α)
    (others : List (Lane σ α β)) :
    (runFrom callbacks first machine others).2.store.output.size = machine.store.output.size := by
  induction first generalizing machine others with
  | done _ => exact Lane.size_advanceAll callbacks others machine
  | fault _ => exact Lane.size_advanceAll callbacks others machine
  | barrier next ih =>
    have hothers := Lane.size_advanceAll callbacks others machine
    simp only [runFrom, Lane.drive, meet]
    cases resumable? (Lane.advanceAll callbacks others machine).1 with
    | none => exact hothers
    | some later => exact (ih _ later).trans hothers
  | ask request next ih =>
    have hperform := Machine.size_perform callbacks request machine
    simp only [runFrom, Lane.drive]
    cases hp : machine.perform callbacks request with
    | mk result after =>
      rw [hp] at hperform
      cases result with
      | ok answer => exact (ih answer after others).trans hperform
      | error panic => exact (Lane.size_advanceAll callbacks others after).trans hperform

theorem Block.size_run (callbacks : Callbacks σ α) (lanes : List (Lane σ α β)) (machine : Machine σ α) :
    (run callbacks lanes machine).2.store.output.size = machine.store.output.size := by
  cases lanes with
  | nil => rfl
  | cons first others => exact size_runFrom callbacks first machine others

theorem size_runBlock (kernel : Kernel σ α) (geometry : Geometry) (block : Nat) (store : Store α) :
    (runBlock kernel geometry block store).2.output.size = store.output.size := by
  rw [runBlock_def]
  cases kernel.slots geometry.threads with
  | error panic => rfl
  | ok slots =>
    have hrun := Block.size_run kernel.callbacks (kernel.lanes geometry block) ⟨slots, store⟩
    cases hcase : Block.run kernel.callbacks (kernel.lanes geometry block) ⟨slots, store⟩ with
    | mk ending machine =>
      rw [hcase] at hrun
      simp only [hcase]
      cases ending <;> exact hrun

theorem size_runBlocks (kernel : Kernel σ α) (geometry : Geometry) (order : List Nat) (store : Store α) :
    (runBlocks kernel geometry order store).2.output.size = store.output.size := by
  induction order generalizing store with
  | nil => rfl
  | cons block rest ih =>
    have hblock := size_runBlock kernel geometry block store
    rw [runBlocks_cons]
    cases hcase : runBlock kernel geometry block store with
    | mk result after =>
      rw [hcase] at hblock
      cases result with
      | ok _ => exact (ih after).trans hblock
      | error _ => exact hblock

/-- **A launch keeps the length of its destination**, whether or not it succeeds. -/
theorem size_launchInOrder (order : Nat → List Nat) (config : LaunchConfig) (kernel : Kernel σ α)
    (blocks threads : Nat) (store : Store α) :
    (launchInOrder order config kernel blocks threads store).2.output.size = store.output.size := by
  rw [launchInOrder_def]
  cases config.validate with
  | error _ => rfl
  | ok _ =>
    simp only
    split
    · rfl
    · split
      · rfl
      · exact size_runBlocks ..

end BlockMachine
