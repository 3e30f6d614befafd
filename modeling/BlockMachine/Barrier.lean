/-!
# The barrier of a block

A barrier for a fixed number of lanes, built from a lock and two fields that can be read without it.
The last lane to arrive opens it for its generation; once it is poisoned nobody waits any more.

The model takes one atomic step at a time, so that any interleaving of its callers can be run:

* `Barrier` — the fields under the lock, and the two shown outside it.
* `Phase` — where a caller stands in a call.
* `BarrierRoom` — a barrier and its callers; `BarrierRoom.step` is the next atomic step of one of
  them, `BarrierRoom.wake` a wake-up that nobody asked for.

A step that would have to wait for the lock, or for a wake-up, changes nothing.
-/

set_option autoImplicit false

namespace BlockMachine

/-- How often a caller looks at the shown fields before it parks. -/
def spinLimit : Nat := 64

/-- The answer of a wait. -/
inductive WaitResult where
  /-- All lanes of the generation arrived. -/
  | opened
  /-- The barrier was poisoned before they did. -/
  | poisoned
  deriving DecidableEq, Repr

/-- A barrier. -/
structure Barrier where
  threads : Nat
  /-- The arrivals of the current generation. -/
  arrived : Nat := 0
  /-- The number of generations completed, which wraps around. -/
  generation : UInt64 := 0
  poisoned : Bool := false
  /-- The generation as it is shown outside the lock. -/
  shownGeneration : UInt64 := 0
  /-- The poison as it is shown outside the lock. -/
  shownPoisoned : Bool := false
  deriving DecidableEq, Repr

/-- Where a caller stands.  A generation is the one in which the caller arrived. -/
inductive Phase where
  /-- Outside any call. -/
  | idle
  /-- About to take the lock and arrive. -/
  | arriving
  /-- In the lock, the barrier opened but not shown yet. -/
  | opening
  /-- About to read the shown generation, for the given round. -/
  | spinning (generation : UInt64) (round : Nat)
  /-- About to read the shown poison, in the given round. -/
  | peeking (generation : UInt64) (round : Nat)
  /-- About to take the lock and look again. -/
  | rechecking (generation : UInt64)
  /-- Asleep until it is woken. -/
  | parked (generation : UInt64)
  /-- About to take the lock and poison the barrier. -/
  | poisoning
  /-- In the lock, the barrier poisoned but not shown yet. -/
  | exposing
  deriving DecidableEq, Repr

/-- A caller: where it stands, and the answers of its waits, the latest first. -/
structure Caller where
  phase : Phase := .idle
  results : List WaitResult := []
  deriving DecidableEq, Repr

/-- A barrier with its callers. -/
structure BarrierRoom where
  barrier : Barrier
  /-- The caller that holds the lock between two of its steps. -/
  holder : Option Nat := none
  callers : List Caller
  deriving DecidableEq, Repr

namespace Caller

/-- The caller in another phase. -/
def moveTo (caller : Caller) (phase : Phase) : Caller := { caller with phase := phase }

/-- The caller after a wait has returned. -/
def returned (caller : Caller) (result : WaitResult) : Caller :=
  ⟨.idle, result :: caller.results⟩

/-- The caller after everyone who is parked has been woken. -/
def notified (caller : Caller) : Caller :=
  match caller.phase with
  | .parked generation => caller.moveTo (.rechecking generation)
  | _ => caller

end Caller

namespace BarrierRoom

/-- The room after a caller has changed. -/
def withCaller (room : BarrierRoom) (index : Nat) (caller : Caller) : BarrierRoom :=
  { room with callers := room.callers.set index caller }

/-- Wakes all who are parked. -/
def notifyAll (room : BarrierRoom) : BarrierRoom :=
  { room with callers := room.callers.map Caller.notified }

/-- The arrival of a caller, in the lock. -/
def arrive (room : BarrierRoom) (index : Nat) (caller : Caller) : BarrierRoom :=
  let barrier := room.barrier
  if barrier.poisoned then room.withCaller index (caller.returned .poisoned)
  else if barrier.arrived + 1 = barrier.threads then
    { room with
        barrier := { barrier with arrived := 0, generation := barrier.generation + 1 }
        holder := some index }
      |>.withCaller index (caller.moveTo .opening)
  else
    { room with barrier := { barrier with arrived := barrier.arrived + 1 } }
      |>.withCaller index (caller.moveTo (.spinning barrier.generation 0))

/-- The second look of a caller, in the lock. -/
def recheck (room : BarrierRoom) (index : Nat) (caller : Caller) (generation : UInt64) :
    BarrierRoom :=
  if room.barrier.generation ≠ generation then room.withCaller index (caller.returned .opened)
  else if room.barrier.poisoned then room.withCaller index (caller.returned .poisoned)
  else room.withCaller index (caller.moveTo (.parked generation))

/-- Whether the lock can be taken. -/
def isFree (room : BarrierRoom) : Bool := room.holder.isNone

/-- The next atomic step of a caller. -/
def step (room : BarrierRoom) (index : Nat) : BarrierRoom :=
  match room.callers[index]? with
  | none => room
  | some caller =>
    match caller.phase with
    | .idle => room
    | .parked _ => room
    | .arriving => if room.isFree then room.arrive index caller else room
    | .opening =>
      let barrier := { room.barrier with shownGeneration := room.barrier.generation }
      { room with barrier := barrier, holder := none }.notifyAll
        |>.withCaller index (caller.returned .opened)
    | .spinning generation round =>
      if spinLimit ≤ round then room.withCaller index (caller.moveTo (.rechecking generation))
      else if room.barrier.shownGeneration ≠ generation then
        room.withCaller index (caller.returned .opened)
      else room.withCaller index (caller.moveTo (.peeking generation round))
    | .peeking generation round =>
      room.withCaller index (caller.moveTo
        (if room.barrier.shownPoisoned then .rechecking generation
          else .spinning generation (round + 1)))
    | .rechecking generation =>
      if room.isFree then room.recheck index caller generation else room
    | .poisoning =>
      if room.isFree then
        { room with barrier := { room.barrier with poisoned := true }, holder := some index }
          |>.withCaller index (caller.moveTo .exposing)
      else room
    | .exposing =>
      let barrier := { room.barrier with shownPoisoned := true }
      { room with barrier := barrier, holder := none }.notifyAll
        |>.withCaller index (caller.moveTo .idle)

/-- A wake-up of a parked caller that nobody asked for. -/
def wake (room : BarrierRoom) (index : Nat) : BarrierRoom :=
  match room.callers[index]? with
  | some caller => room.withCaller index caller.notified
  | none => room

/-- An idle caller begins a call: a wait, or a poisoning. -/
def call (room : BarrierRoom) (index : Nat) (phase : Phase) : BarrierRoom :=
  match room.callers[index]? with
  | some ⟨.idle, results⟩ => room.withCaller index ⟨phase, results⟩
  | _ => room

end BarrierRoom

end BlockMachine
