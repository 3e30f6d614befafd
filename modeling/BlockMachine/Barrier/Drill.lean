import BlockMachine.Barrier

/-!
# Drills at a barrier

Runs of a barrier in which the callers take their steps in turn.

* `Drill.waitAll` — every lane of the block waits a number of times.
* `Drill.strand` — some callers wait, and then the barrier is poisoned.
* `Drill.poison` — the barrier is poisoned with nobody waiting.
* `Drill.perform` — one part of a drill, with its answers.
-/

set_option autoImplicit false

namespace BlockMachine

namespace Drill

/-- The passes over all callers that one wait takes at most: two reads for each look outside the lock,
and the steps before and after them. -/
def passesPerWait : Nat := 2 * spinLimit + 8

/-- One step of a caller, which begins its next wait if it is idle and has waits left. -/
def turn (waits : Nat) (room : BarrierRoom) (index : Nat) : BarrierRoom :=
  match room.callers[index]? with
  | some ⟨.idle, results⟩ =>
    if results.length < waits then room.call index .arriving else room
  | _ => room.step index

/-- One step of each of the first callers of a room. -/
def pass (waits callers : Nat) (room : BarrierRoom) : BarrierRoom :=
  (List.range callers).foldl (turn waits) room

/-- A number of passes. -/
def passes (waits callers : Nat) : Nat → BarrierRoom → BarrierRoom
  | 0, room => room
  | count + 1, room => passes waits callers count (pass waits callers room)

/-- A room with a number of idle callers. -/
def gather (barrier : Barrier) (callers : Nat) : BarrierRoom :=
  ⟨barrier, none, List.replicate callers {}⟩

/-- The answers of each caller, in the order of its waits. -/
def answers (room : BarrierRoom) : List (List WaitResult) :=
  room.callers.map fun caller => caller.results.reverse

/-- Callers that all wait a number of times: their answers, and the barrier afterwards. -/
def wait (barrier : Barrier) (callers waits : Nat) : List (List WaitResult) × Barrier :=
  let room := passes waits callers (waits * passesPerWait) (gather barrier callers)
  (answers room, room.barrier)

/-- Every lane of the block waits a number of times. -/
def waitAll (barrier : Barrier) (waits : Nat) : List (List WaitResult) × Barrier :=
  wait barrier barrier.threads waits

/-- An idle caller poisons the barrier, while nobody holds the lock. -/
def poisonBy (room : BarrierRoom) (caller : Nat) : BarrierRoom :=
  ((room.call caller .poisoning).step caller).step caller

/-- The barrier after it has been poisoned with nobody waiting. -/
def poison (barrier : Barrier) : Barrier :=
  (poisonBy (gather barrier 1) 0).barrier

/-- Callers that wait once, until one more caller poisons the barrier. -/
def strand (barrier : Barrier) (callers : Nat) : List WaitResult × Barrier :=
  let waiting := passes 1 callers passesPerWait (gather barrier (callers + 1))
  let room := passes 1 callers passesPerWait (poisonBy waiting callers)
  ((answers room).flatten, room.barrier)

/-- One part of a drill. -/
inductive Step where
  /-- Every lane of the block waits a number of times. -/
  | waitAll (waits : Nat)
  /-- One caller waits once. -/
  | wait
  | strand (callers : Nat)
  | poison
  deriving DecidableEq, Repr

/-- The answers of a part of a drill. -/
inductive Report where
  | perCaller (answers : List (List WaitResult))
  | single (answers : List WaitResult)
  | poisoned
  deriving DecidableEq, Repr

/-- The answers of a part of a drill, and the barrier after it. -/
def perform (barrier : Barrier) : Step → Report × Barrier
  | .waitAll waits =>
    let (answers, barrier) := waitAll barrier waits
    (.perCaller answers, barrier)
  | .wait =>
    let (answers, barrier) := wait barrier 1 1
    (.single answers.flatten, barrier)
  | .strand callers =>
    let (answers, barrier) := strand barrier callers
    (.single answers, barrier)
  | .poison => (.poisoned, poison barrier)

end Drill

end BlockMachine
