import BlockMachine.Lane.Machine
import BlockMachine.Memory.Slots

/-!
# One lane among scripted others

Runs one lane alone.  What the other lanes of its block would do is given as the stores that they make
at each of its barriers; `Lane.runAmong` tells what the lane did in between.  A store past the end of the
slots is a panic and ends the run.
-/

set_option autoImplicit false

namespace BlockMachine

/-- What is seen of a lane that runs alone. -/
inductive LaneEvent (σ : Type) where
  /-- An application of the operator that did not panic. -/
  | combined (left right result : σ)
  /-- A barrier, with the slots as they are after the stores of the others. -/
  | passed (slots : Array σ)

namespace Lane

variable {σ α β : Type}

/-- What is seen of an answered request. -/
def eventOf : (request : Request σ α) → request.Answer → Option (LaneEvent σ)
  | .combine left right, result => some (.combined left right result)
  | _, _ => none

/-- The slots after some stores, and the panic of the first store past the end, which is the last one
that is tried. -/
def storeAll (slots : Array σ) : List (Nat × σ) → Option Panic × Array σ
  | [] => (none, slots)
  | (slot, value) :: rest =>
    match Slots.store slots slot value with
    | .ok slots => storeAll slots rest
    | .error panic => (some panic, slots)

/-- Runs a lane to its end.  At each barrier the next group of stores is done; once the groups are
used up, nothing is stored any more. -/
def runAmong (callbacks : Callbacks σ α) :
    Lane σ α β → List (List (Nat × σ)) → Machine σ α →
      List (LaneEvent σ) × Except Panic β × Machine σ α
  | done result, _, machine => ([], .ok result, machine)
  | fault panic, _, machine => ([], .error panic, machine)
  | barrier next, groups, machine =>
    match storeAll machine.slots (groups.headD []) with
    | (some panic, slots) => ([], .error panic, { machine with slots := slots })
    | (none, slots) =>
      let (events, result, machine) :=
        runAmong callbacks next groups.tail { machine with slots := slots }
      (.passed slots :: events, result, machine)
  | ask request next, groups, machine =>
    match machine.perform callbacks request with
    | (.error panic, machine) => ([], .error panic, machine)
    | (.ok answer, machine) =>
      let (events, result, machine) := runAmong callbacks (next answer) groups machine
      ((eventOf request answer).toList ++ events, result, machine)

end Lane

end BlockMachine
