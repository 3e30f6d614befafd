import BlockMachine.Lane.Machine

/-!
# Blocks

The lanes of a block run from barrier to barrier.  `Block.run` is one of the orders in which they
may: between two barriers the lanes take their turns by number, each as far as it can go.

* `Stop.next?` and `Block.resumable?` — a barrier opens when every lane waits at it.
* `Block.verdict` — how a block ends when a barrier does not open: with the message of a fault, with
  a release that reports nothing, in a deadlock, or complete.
-/

set_option autoImplicit false

namespace BlockMachine

/-- What a lane does after the barrier at which it waits. -/
def Stop.next? {σ α β : Type} : Stop σ α β → Option (Lane σ α β)
  | .waiting next => some next
  | _ => none

/-- The panic with which a lane ended, if it did. -/
def Stop.panic? {σ α β : Type} : Stop σ α β → Option Panic
  | .faulted panic => some panic
  | _ => none

/-- How a block ends. -/
inductive BlockEnd where
  /-- Every lane came to its normal end. -/
  | complete
  /-- A lane panicked; the message is that of the first panic with something to report. -/
  | faulted (message : String)
  /-- Lanes raised the release signal of a barrier, and no fault is on record. -/
  | abandoned
  /-- Some lanes wait for others which have already ended. -/
  | deadlock
  deriving DecidableEq, Repr

namespace Block

variable {σ α β : Type}

/-- What the lanes do next, if all of them wait at a barrier. -/
def resumable? (stops : List (Stop σ α β)) : Option (List (Lane σ α β)) :=
  stops.mapM Stop.next?

/-- How a block ends whose lanes cannot go on. -/
def verdict (stops : List (Stop σ α β)) : BlockEnd :=
  match stops.filterMap Stop.panic? with
  | [] => if stops.any (fun stop => stop.next?.isSome) then .deadlock else .complete
  | panics =>
    match panics.find? fun panic => !panic.isRelease with
    | some panic => .faulted panic.report
    | none => .abandoned

/-- Ends a block whose first lane does not go on, once the others have stopped as well. -/
def conclude (callbacks : Callbacks σ α) (first : Stop σ α β) (others : List (Lane σ α β))
    (machine : Machine σ α) : BlockEnd × Machine σ α :=
  let (stops, machine) := Lane.advanceAll callbacks others machine
  (verdict (first :: stops), machine)

/-- Lets the others come to the barrier at which the first lane waits.  If all of them do, the
barrier opens and `resume` runs what comes after it. -/
def meet (callbacks : Callbacks σ α) (first : Lane σ α β)
    (resume : Machine σ α → List (Lane σ α β) → BlockEnd × Machine σ α)
    (others : List (Lane σ α β)) (machine : Machine σ α) : BlockEnd × Machine σ α :=
  let (stops, machine) := Lane.advanceAll callbacks others machine
  match resumable? stops with
  | some others => resume machine others
  | none => (verdict (.waiting first :: stops), machine)

/-- Runs the lanes of a block to its end, the first lane leading. -/
def runFrom (callbacks : Callbacks σ α) (first : Lane σ α β) :
    Machine σ α → List (Lane σ α β) → BlockEnd × Machine σ α :=
  first.drive callbacks
    (fun result machine others => conclude callbacks (.finished result) others machine)
    (fun panic machine others => conclude callbacks (.faulted panic) others machine)
    (fun next resume machine others => meet callbacks next resume others machine)

/-- Runs the lanes of a block to its end. -/
def run (callbacks : Callbacks σ α) (lanes : List (Lane σ α β)) (machine : Machine σ α) :
    BlockEnd × Machine σ α :=
  match lanes with
  | [] => (.complete, machine)
  | first :: others => runFrom callbacks first machine others

end Block

end BlockMachine
