import BlockMachine.Lane.Program

/-!
# The machine under a lane

* `Callbacks` — the caller's code: the items of its view, its operator, its elements.
* `Store` — what all blocks of a launch have in common: the destination and the journal.
* `Machine` — the store and the slots of one block.
* `Machine.perform` — the answer to one request and the machine after it; a request that panics may
  have left its mark on the journal.
* `Lane.drive` — a program run up to its end, its fault or its next barrier.
-/

set_option autoImplicit false

namespace BlockMachine

/-- The code of the caller that a lane runs. -/
structure Callbacks (σ α : Type) where
  /-- The item at an index, given how often it was asked for before. -/
  fetch : (index earlier : Nat) → Except Panic σ
  combine : (left right : σ) → Except Panic σ
  element : Element α

/-- What all blocks of a launch have in common. -/
structure Store (α : Type) where
  output : Array α
  journal : Journal

/-- What the lanes of one block have in common. -/
structure Machine (σ α : Type) where
  slots : Array σ
  store : Store α

namespace Machine

variable {σ α : Type}

/-- The answer to a request, and the machine after it. -/
def perform (callbacks : Callbacks σ α) :
    (request : Request σ α) → Machine σ α → Except Panic request.Answer × Machine σ α
  | .load slot, ⟨slots, store⟩ =>
    match slots[slot]? with
    | some value => (.ok value, ⟨slots, store⟩)
    | none => (.error (.indexOutOfBounds slots.size slot), ⟨slots, store⟩)
  | .store slot value, ⟨slots, store⟩ =>
    if slot < slots.size then (.ok (), ⟨slots.setIfInBounds slot value, store⟩)
    else (.error (.indexOutOfBounds slots.size slot), ⟨slots, store⟩)
  | .combine left right, machine => (callbacks.combine left right, machine)
  | .fetch index, ⟨slots, output, journal⟩ =>
    (callbacks.fetch index (journal.callsOf index), ⟨slots, output, journal.countCall index⟩)
  | .clone value, ⟨slots, output, journal⟩ =>
    (callbacks.element.clone value, ⟨slots, output, journal.countClone⟩)
  | .write index value, ⟨slots, output, journal⟩ =>
    (.ok (), ⟨slots, output.setIfInBounds index value, journal⟩)
  | .writeBytes position bytes, ⟨slots, output, journal⟩ =>
    (.ok (), ⟨slots, callbacks.element.writeBytes output position bytes, journal⟩)
  | .note record, ⟨slots, output, journal⟩ => (.ok (), ⟨slots, output, journal.note record⟩)

end Machine

/-- Where a lane is found when it stops. -/
inductive Stop (σ α β : Type) where
  | finished (result : β)
  | faulted (panic : Panic)
  /-- At a barrier, with what it does after it. -/
  | waiting (next : Lane σ α β)

namespace Lane

variable {σ α β ρ : Type}

/-- Runs a program up to its end, its fault or its next barrier, and hands the machine to the
handler of that case.  At a barrier the handler is also given the run of what comes after it. -/
def drive (callbacks : Callbacks σ α) (onDone : β → Machine σ α → ρ)
    (onFault : Panic → Machine σ α → ρ)
    (onBarrier : Lane σ α β → (Machine σ α → ρ) → Machine σ α → ρ) :
    Lane σ α β → Machine σ α → ρ
  | done result, machine => onDone result machine
  | fault panic, machine => onFault panic machine
  | barrier next, machine =>
    onBarrier next (drive callbacks onDone onFault onBarrier next) machine
  | ask request next, machine =>
    match machine.perform callbacks request with
    | (.ok answer, machine) => drive callbacks onDone onFault onBarrier (next answer) machine
    | (.error panic, machine) => onFault panic machine

/-- Runs a program until it stops. -/
def advance (callbacks : Callbacks σ α) (program : Lane σ α β) (machine : Machine σ α) :
    Stop σ α β × Machine σ α :=
  program.drive callbacks (fun result machine => (.finished result, machine))
    (fun panic machine => (.faulted panic, machine))
    (fun next _ machine => (.waiting next, machine)) machine

/-- Runs programs one after the other, each until it stops. -/
def advanceAll (callbacks : Callbacks σ α) :
    List (Lane σ α β) → Machine σ α → List (Stop σ α β) × Machine σ α
  | [], machine => ([], machine)
  | program :: rest, machine =>
    let (stop, machine) := program.advance callbacks machine
    let (stops, machine) := advanceAll callbacks rest machine
    (stop :: stops, machine)

end Lane

end BlockMachine
