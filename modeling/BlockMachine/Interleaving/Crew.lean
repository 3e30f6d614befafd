import BlockMachine.Block

/-!
# Lanes of a block in any order

A `Crew` is a block under way: its slots, and for each lane where it stands.  `Crew.turn` lets one lane
do one thing, so a list of lanes is an interleaving, and every interleaving is such a list.  The order
in which `Block.run` takes the lanes is one of them (`Crew.inOrder`).

* A barrier opens when every lane has arrived at it.
* A lane that unwinds poisons the block.  From then on no barrier opens, and every lane that waits at
  one, or comes to one, unwinds with the release signal.
* The first panic with something to report becomes the fault of the block.

All lanes of a crew have been started, and a barrier opens for all of them in one turn.  A `Team` is a block whose
lanes are threads, and its barrier is a `Barrier`; `Team.Mirrors.echoes` says that a crew does all that a team does.
-/

set_option autoImplicit false

namespace BlockMachine

/-- Where a lane of a block under way stands. -/
inductive Station (σ α β : Type) where
  | running (program : Lane σ α β)
  /-- At a barrier that has not opened, with what comes after it. -/
  | arrived (next : Lane σ α β)
  | finished (result : β)
  | unwound (panic : Panic)

namespace Station

variable {σ α β : Type}

/-- Whether the lane does nothing any more. -/
def isOver : Station σ α β → Bool
  | finished _ | unwound _ => true
  | running _ | arrived _ => false

/-- Whether the lane is at a barrier. -/
def isArrived : Station σ α β → Bool
  | arrived _ => true
  | _ => false

/-- The lane behind the barrier at which it was. -/
def passed : Station σ α β → Station σ α β
  | arrived next => running next
  | station => station

end Station

/-- A block under way. -/
structure Crew (σ α β : Type) where
  slots : Array σ
  stations : List (Station σ α β)
  /-- Whether a lane has unwound. -/
  poisoned : Bool := false
  /-- The first panic with something to report. -/
  fault : Option Panic := none

namespace Crew

variable {σ α β : Type}

/-- A block about to begin. -/
def start (slots : Array σ) (lanes : List (Lane σ α β)) : Crew σ α β :=
  { slots := slots, stations := lanes.map .running }

/-- The crew after a lane has moved. -/
def moved (crew : Crew σ α β) (lane : Nat) (station : Station σ α β) : Crew σ α β :=
  { crew with stations := crew.stations.set lane station }

/-- The crew after a lane has unwound. -/
def unwound (crew : Crew σ α β) (lane : Nat) (panic : Panic) : Crew σ α β :=
  { crew.moved lane (.unwound panic) with
    poisoned := true
    fault := crew.fault <|> (if panic.isRelease then none else some panic) }

/-- Opens the barrier if every lane has arrived at it. -/
def opened (crew : Crew σ α β) : Crew σ α β :=
  if crew.stations.all Station.isArrived then
    { crew with stations := crew.stations.map Station.passed }
  else crew

/-- The crew after a lane has come to a barrier. -/
def atBarrier (crew : Crew σ α β) (lane : Nat) (next : Lane σ α β) : Crew σ α β :=
  if crew.poisoned then crew.unwound lane (.raised .barrierPoisoned)
  else (crew.moved lane (.arrived next)).opened

/-- The crew and the store after a lane has had an answer to a request. -/
def answered (crew : Crew σ α β) (lane : Nat) {request : Request σ α}
    (next : request.Answer → Lane σ α β) :
    Except Panic request.Answer × Machine σ α → Crew σ α β × Store α
  | (.ok answer, machine) =>
    ({ crew with slots := machine.slots }.moved lane (.running (next answer)), machine.store)
  | (.error panic, machine) =>
    ({ crew with slots := machine.slots }.unwound lane panic, machine.store)

/-- One lane does one thing: it asks one request, comes to a barrier, ends, or unwinds.  A lane that
can do nothing stays where it is. -/
def turn (callbacks : Callbacks σ α) (crew : Crew σ α β) (lane : Nat) (store : Store α) :
    Crew σ α β × Store α :=
  match crew.stations[lane]? with
  | some (.running (.done result)) => (crew.moved lane (.finished result), store)
  | some (.running (.fault panic)) => (crew.unwound lane panic, store)
  | some (.running (.barrier next)) => (crew.atBarrier lane next, store)
  | some (.running (.ask request next)) =>
    crew.answered lane next (Machine.perform callbacks request ⟨crew.slots, store⟩)
  | some (.arrived _) =>
    if crew.poisoned then (crew.unwound lane (.raised .barrierPoisoned), store) else (crew, store)
  | _ => (crew, store)

/-- The lanes take turns in a given order. -/
def run (callbacks : Callbacks σ α) (crew : Crew σ α β) (store : Store α) (lanes : List Nat) :
    Crew σ α β × Store α :=
  lanes.foldl (fun (state : Crew σ α β × Store α) lane => state.1.turn callbacks lane state.2)
    (crew, store)

/-- Whether every lane is over. -/
def isOver (crew : Crew σ α β) : Bool := crew.stations.all Station.isOver

/-- How a block ends whose lanes are all over. -/
def ending (crew : Crew σ α β) : BlockEnd :=
  match crew.fault with
  | some panic => .faulted panic.report
  | none => if crew.poisoned then .abandoned else .complete

end Crew

end BlockMachine
