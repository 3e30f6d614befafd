import BlockMachine.Word

/-!
# Slots of a block

The memory that the lanes of one block share: a fixed number of slots, each of them read and written
as a whole.  An index past the end is a panic.
-/

set_option autoImplicit false

namespace BlockMachine

namespace Slots

variable {σ : Type}

/-- A number of slots, all with the same value. -/
def blank (length : Nat) (value : σ) : Array σ := Array.replicate length value

/-- A number of slots of some bytes each, all with the same value, if they fit one allocation. -/
def allocate (bytes length : Nat) (value : σ) : Except Panic (Array σ) :=
  if length * bytes < Word.allocationLimit then .ok (blank length value) else .error .capacityOverflow

/-- The value of a slot. -/
def load (slots : Array σ) (index : Nat) : Except Panic σ :=
  match slots[index]? with
  | some value => .ok value
  | none => .error (.indexOutOfBounds slots.size index)

/-- The slots after a write to one of them. -/
def store (slots : Array σ) (index : Nat) (value : σ) : Except Panic (Array σ) :=
  if index < slots.size then .ok (slots.setIfInBounds index value)
  else .error (.indexOutOfBounds slots.size index)

/-- What is shown of the slots in a debug text: their number. -/
def describe (slots : Array σ) : String :=
  s!"SharedArray \x7b len: {slots.size} \x7d"

/-- One use of the slots. -/
inductive Use (σ : Type) where
  | store (index : Nat) (value : σ)
  | load (index : Nat)
  | length
  | describe

/-- The answer to a use. -/
inductive Report (σ : Type) where
  | stored
  | loaded (value : σ)
  | length (slots : Nat)
  | text (text : String)

/-- The answer to a use, and the slots after it. -/
def perform (slots : Array σ) : Use σ → Except Panic (Report σ × Array σ)
  | .store index value => return (.stored, ← store slots index value)
  | .load index => return (.loaded (← load slots index), slots)
  | .length => return (.length slots.size, slots)
  | .describe => return (.text (describe slots), slots)

end Slots

end BlockMachine
