import BlockMachine.Interleaving.Grid

/-!
# Logs of a run

What the lanes of a block, or of a launch, did in their turns, in the order in which they did it.

* `Deed` — what a lane can do in a turn.
* `Deed.segment` — the requests of a lane between two of its barriers.
* `Deed.requests` — the requests of all lanes, in the order in which they were made.
* `Crew.log`, `Grid.log` — the deeds of a run, each with the lane, or the block and the lane, that did it.
-/

set_option autoImplicit false

namespace BlockMachine

/-- What a lane that is under way can do in a turn. -/
inductive Deed (σ α : Type) where
  | asks (request : Request σ α)
  /-- Comes to a barrier. -/
  | arrives
  /-- Comes to the end of its program, or to a fault of its own. -/
  | ends

/-- The requests of a lane after it has arrived at a number of barriers, up to the next one. -/
def Deed.segment {σ α : Type} : (barriers : Nat) → List (Deed σ α) → List (Request σ α)
  | _, [] => []
  | 0, .asks request :: rest => request :: segment 0 rest
  | 0, .ends :: rest => segment 0 rest
  | 0, .arrives :: _ => []
  | barriers + 1, .arrives :: rest => segment barriers rest
  | barriers + 1, .asks _ :: rest => segment (barriers + 1) rest
  | barriers + 1, .ends :: rest => segment (barriers + 1) rest

/-- The request of a deed. -/
def Deed.request? {σ α : Type} : Deed σ α → Option (Request σ α)
  | asks request => some request
  | _ => none

/-- The requests of a log, in order. -/
def Deed.requests {σ α τ : Type} (log : List (τ × Deed σ α)) : List (Request σ α) :=
  log.filterMap fun entry => entry.2.request?

/-- What a lane does when it is its turn; nothing if it waits or is over. -/
def Station.deed? {σ α β : Type} : Station σ α β → Option (Deed σ α)
  | running (.ask request _) => some (.asks request)
  | running (.barrier _) => some .arrives
  | running (.done _) => some .ends
  | running (.fault _) => some .ends
  | _ => none

namespace Crew

variable {σ α β : Type}

/-- What a lane does when it is its turn. -/
def deed? (crew : Crew σ α β) (lane : Nat) : Option (Deed σ α) :=
  crew.stations[lane]?.bind Station.deed?

/-- What the lanes do when they take turns in a given order. -/
def log (callbacks : Callbacks σ α) : Crew σ α β → Store α → List Nat → List (Nat × Deed σ α)
  | _, _, [] => []
  | crew, store, lane :: rest =>
    (crew.deed? lane).toList.map (fun deed => (lane, deed)) ++
      log callbacks (crew.turn callbacks lane store).1 (crew.turn callbacks lane store).2 rest

end Crew

namespace Grid

variable {σ α : Type}

/-- What a lane of a block does when it is its turn. -/
def deed? (grid : Grid σ α) (place : Nat × Nat) : Option (Deed σ α) :=
  (grid.crew? place.1).bind fun crew => crew.deed? place.2

/-- What the lanes of a launch under way do when they take turns in a given order. -/
def logFrom (scheduling : Scheduling) (kernel : Kernel σ α) (geometry : Geometry) :
    Grid σ α → List (Nat × Nat) → List ((Nat × Nat) × Deed σ α)
  | _, [] => []
  | grid, place :: rest =>
    (grid.deed? place).toList.map (fun deed => (place, deed)) ++
      logFrom scheduling kernel geometry (grid.turn scheduling kernel geometry place) rest

/-- What the lanes of a launch do when they take turns in a given order. -/
def log (scheduling : Scheduling) (kernel : Kernel σ α) (geometry : Geometry) (store : Store α)
    (places : List (Nat × Nat)) : List ((Nat × Nat) × Deed σ α) :=
  logFrom scheduling kernel geometry (start geometry store) places

end Grid

end BlockMachine
