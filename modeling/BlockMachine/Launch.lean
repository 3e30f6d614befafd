import BlockMachine.Block
import BlockMachine.Error

/-!
# Launches

A launch runs a kernel on every lane of a grid of blocks.

* `Kernel` — the slots of a block, the program of each lane and the caller's code.
* `Spawner` — the host, which starts a thread for each lane, or cannot.
* `runBlockOn` — one block, on slots of its own.
* `runBlocksOn` — blocks in a given order, up to the first that does not end well.
* `launchOn` — the checks, the log line and the blocks in a given order.

Each of them returns what the store holds afterwards, whether or not it succeeded.  `runBlock`, `runBlocks` and
`launchInOrder` are the same on a host that starts every lane, and `launch` runs the blocks there in the order of
the configuration.
-/

set_option autoImplicit false

namespace BlockMachine

/-- A kernel: what is created for each block, and what each lane does. -/
structure Kernel (σ α : Type) where
  /-- The slots of a block of a number of lanes. -/
  slots : Nat → Except Panic (Array σ)
  program : LaneContext → Lane σ α Unit
  callbacks : Callbacks σ α

/-- The shape of a launch. -/
structure Geometry where
  blocks : Nat
  threads : Nat
  wideCopy : Bool
  deriving DecidableEq, Repr

/-- The context of a lane of a block. -/
def Geometry.context (geometry : Geometry) (block lane : Nat) : LaneContext :=
  ⟨lane, block, geometry.threads, geometry.blocks, geometry.wideCopy⟩

/-- The programs of the lanes of a block. -/
def Kernel.lanes {σ α : Type} (kernel : Kernel σ α) (geometry : Geometry) (block : Nat) :
    List (Lane σ α Unit) :=
  (List.range geometry.threads).map fun lane => kernel.program (geometry.context block lane)

variable {σ α : Type}

/-- A host: why it cannot start the thread of a lane of a block, where it cannot. -/
structure Spawner where
  refuses : (block lane : Nat) → Option String

namespace Spawner

/-- A host that starts every lane. -/
def willing : Spawner := ⟨fun _ _ => none⟩

/-- Why a host cannot start all lanes of a block.  It starts them by number, and the first one that it cannot start
is the last one that it tries. -/
def refusal? (spawner : Spawner) (threads block : Nat) : Option String :=
  (List.range threads).findSome? (spawner.refuses block)

@[simp] theorem refusal?_willing (threads block : Nat) : willing.refusal? threads block = none :=
  List.findSome?_eq_none_iff.mpr fun _ _ => rfl

end Spawner

/-- Runs one block.  A panic while its slots are created reaches the caller.  The lanes wait for each other before
they do anything, so that none of them runs unless the host starts them all. -/
def runBlockOn (spawner : Spawner) (kernel : Kernel σ α) (geometry : Geometry) (block : Nat)
    (store : Store α) : Except Failure Unit × Store α :=
  match kernel.slots geometry.threads with
  | .error panic => (.error (.panic panic), store)
  | .ok slots =>
    match spawner.refusal? geometry.threads block with
    | some cause => (.error (.error (.launchFailed block cause)), store)
    | none =>
      match Block.run kernel.callbacks (kernel.lanes geometry block) ⟨slots, store⟩ with
      | (.faulted message, machine) =>
        (.error (.error (.kernelFault block message)),
          { machine.store with journal := machine.store.journal.note (.blockFaulted block message) })
      | (.deadlock, machine) => (.error .deadlock, machine.store)
      | (_, machine) => (.ok (), machine.store)

/-- Runs blocks in the given order, and stops at the first that does not end well. -/
def runBlocksOn (spawner : Spawner) (kernel : Kernel σ α) (geometry : Geometry) :
    List Nat → Store α → Except Failure Unit × Store α
  | [], store => (.ok (), store)
  | block :: rest, store =>
    match runBlockOn spawner kernel geometry block store with
    | (.ok (), store) => runBlocksOn spawner kernel geometry rest store
    | (.error failure, store) => (.error failure, store)

/-- Launches a kernel on a grid whose blocks run in the order that `order` gives for their number. -/
def launchOn (spawner : Spawner) (order : Nat → List Nat) (config : LaunchConfig) (kernel : Kernel σ α)
    (blocks threads : Nat) (store : Store α) : Except Failure Unit × Store α :=
  match config.validate with
  | .error problem => (.error (.error (.invalidConfig problem)), store)
  | .ok () =>
    if threads = 0 ∨ maxThreadsPerBlock < threads then
      (.error (.error (.invalidConfig (.launchWidth threads))), store)
    else if blocks = 0 then (.ok (), store)
    else
      let record := Record.launch blocks threads config.scheduling config.capability
      runBlocksOn spawner kernel ⟨blocks, threads, config.capability.supportsWideCopy⟩ (order blocks)
        { store with journal := store.journal.note record }

/-! ## Hosts that start every lane -/

/-- Runs one block all of whose lanes are started. -/
def runBlock (kernel : Kernel σ α) (geometry : Geometry) (block : Nat) (store : Store α) :
    Except Failure Unit × Store α :=
  runBlockOn .willing kernel geometry block store

/-- Runs blocks all of whose lanes are started. -/
def runBlocks (kernel : Kernel σ α) (geometry : Geometry) (order : List Nat) (store : Store α) :
    Except Failure Unit × Store α :=
  runBlocksOn .willing kernel geometry order store

/-- Launches a kernel all of whose lanes are started, the blocks in the order that `order` gives for their
number. -/
def launchInOrder (order : Nat → List Nat) (config : LaunchConfig) (kernel : Kernel σ α)
    (blocks threads : Nat) (store : Store α) : Except Failure Unit × Store α :=
  launchOn .willing order config kernel blocks threads store

/-- Launches a kernel all of whose lanes are started, the blocks in the order of the configuration. -/
def launch (config : LaunchConfig) (kernel : Kernel σ α) (blocks threads : Nat)
    (store : Store α) : Except Failure Unit × Store α :=
  launchInOrder config.scheduling.order config kernel blocks threads store

/-- What a block does all of whose lanes are started. -/
theorem runBlock_def (kernel : Kernel σ α) (geometry : Geometry) (block : Nat) (store : Store α) :
    runBlock kernel geometry block store =
      match kernel.slots geometry.threads with
      | .error panic => (.error (.panic panic), store)
      | .ok slots =>
        match Block.run kernel.callbacks (kernel.lanes geometry block) ⟨slots, store⟩ with
        | (.faulted message, machine) =>
          (.error (.error (.kernelFault block message)),
            { machine.store with journal := machine.store.journal.note (.blockFaulted block message) })
        | (.deadlock, machine) => (.error .deadlock, machine.store)
        | (_, machine) => (.ok (), machine.store) := by
  simp only [runBlock, runBlockOn, Spawner.refusal?_willing]

@[simp] theorem runBlocks_nil (kernel : Kernel σ α) (geometry : Geometry) (store : Store α) :
    runBlocks kernel geometry [] store = (.ok (), store) := rfl

theorem runBlocks_cons (kernel : Kernel σ α) (geometry : Geometry) (block : Nat) (rest : List Nat)
    (store : Store α) :
    runBlocks kernel geometry (block :: rest) store =
      match runBlock kernel geometry block store with
      | (.ok (), store) => runBlocks kernel geometry rest store
      | (.error failure, store) => (.error failure, store) := rfl

theorem launchInOrder_def (order : Nat → List Nat) (config : LaunchConfig) (kernel : Kernel σ α)
    (blocks threads : Nat) (store : Store α) :
    launchInOrder order config kernel blocks threads store =
      match config.validate with
      | .error problem => (.error (.error (.invalidConfig problem)), store)
      | .ok () =>
        if threads = 0 ∨ maxThreadsPerBlock < threads then
          (.error (.error (.invalidConfig (.launchWidth threads))), store)
        else if blocks = 0 then (.ok (), store)
        else
          runBlocks kernel ⟨blocks, threads, config.capability.supportsWideCopy⟩ (order blocks)
            { store with
              journal := store.journal.note (.launch blocks threads config.scheduling config.capability) } :=
  rfl

end BlockMachine
