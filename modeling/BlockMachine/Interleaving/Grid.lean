import BlockMachine.Interleaving.Crew
import BlockMachine.Launch

/-!
# Blocks of a launch in any order

A `Grid` is a launch under way.  A turn belongs to one lane of one block: it begins the block if that
has not begun yet and may, and otherwise lets the lane do one thing.  What `launch` does is one of the
runs of a grid (`Grid.exists_run_launch`).

* `Grid.mayBegin` — in parallel any block may begin at any time; otherwise a block waits until those
  before it have ended without a fault.
* `Grid.run` — the turns of a launch.
* `Grid.isOver` — whether the launch has ended; after a fault the blocks that have not begun are left.
* `Grid.Answers` — what an ended launch may answer: of several faults, any one.

Its host starts every lane, as that of `launch` does.  A `ThreadedGrid` is a launch whose lanes are threads, on any
host, and `ThreadedGrid.exists_run_grid` says that its lanes do what those of a `Grid` do.
-/

set_option autoImplicit false

namespace BlockMachine

/-- A launch under way. -/
structure Grid (σ α : Type) where
  /-- The blocks, as far as they have begun. -/
  crews : List (Option (Crew σ α Unit))
  store : Store α

namespace Grid

variable {σ α : Type}

/-- A launch about to begin. -/
def start (geometry : Geometry) (store : Store α) : Grid σ α :=
  ⟨List.replicate geometry.blocks none, store⟩

/-- A block that has begun. -/
def crew? (grid : Grid σ α) (block : Nat) : Option (Crew σ α Unit) := grid.crews[block]?.join

/-- Whether a block has ended without a fault. -/
def isDone (grid : Grid σ α) (block : Nat) : Bool :=
  (grid.crew? block).any fun crew => crew.isOver && crew.fault.isNone

/-- Whether a block that has not begun may do so. -/
def mayBegin (scheduling : Scheduling) (grid : Grid σ α) (block : Nat) : Bool :=
  match scheduling with
  | .parallel => true
  | .sequential | .reversed =>
    ((scheduling.order grid.crews.length).takeWhile (· ≠ block)).all grid.isDone

/-- Begins a block, if its slots can be had. -/
def begun (kernel : Kernel σ α) (geometry : Geometry) (grid : Grid σ α) (block : Nat) : Grid σ α :=
  match kernel.slots geometry.threads with
  | .error _ => grid
  | .ok slots =>
    { grid with
      crews := grid.crews.set block (some (Crew.start slots (kernel.lanes geometry block))) }

/-- One turn of a lane of a block. -/
def turn (scheduling : Scheduling) (kernel : Kernel σ α) (geometry : Geometry) (grid : Grid σ α)
    (place : Nat × Nat) : Grid σ α :=
  match grid.crew? place.1 with
  | none => if grid.mayBegin scheduling place.1 then grid.begun kernel geometry place.1 else grid
  | some crew =>
    let (crew, store) := crew.turn kernel.callbacks place.2 grid.store
    ⟨grid.crews.set place.1 (some crew), store⟩

/-- A launch whose lanes take turns in a given order; each turn names a block and one of its lanes. -/
def run (scheduling : Scheduling) (kernel : Kernel σ α) (geometry : Geometry) (store : Store α)
    (places : List (Nat × Nat)) : Grid σ α :=
  places.foldl (turn scheduling kernel geometry) (start geometry store)

/-- The fault of a block, if it has one. -/
def fault? (grid : Grid σ α) (block : Nat) : Option Panic :=
  (grid.crew? block).bind Crew.fault

/-- Whether the launch has ended: every block that has begun is over, and all have begun unless one of
them has a fault. -/
def isOver (grid : Grid σ α) : Bool :=
  let blocks := List.range grid.crews.length
  blocks.all (fun block => (grid.crew? block).all Crew.isOver) &&
    (blocks.all (fun block => (grid.crew? block).isSome) ||
      blocks.any fun block => (grid.fault? block).isSome)

/-- What a launch that has ended may answer. -/
inductive Answers (grid : Grid σ α) : Except Failure Unit → Prop where
  | ok (h : ∀ block, grid.fault? block = none) : Answers grid (.ok ())
  | fault (block : Nat) (panic : Panic) (h : grid.fault? block = some panic) :
    Answers grid (.error (.error (.kernelFault block panic.report)))

end Grid

end BlockMachine
