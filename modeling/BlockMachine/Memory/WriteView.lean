import BlockMachine.Word
import BlockMachine.Lane.Program

/-!
# Views of a destination

Lanes write through views: runs of equal cells that lie one after the other in a destination.  A view
can be cut at its start and read anew in cells of another size; what a lane writes is checked against
the length of the view.

* `WriteView.from` — the view of cells from one of them on.
* `WriteView.cast` — the same bytes in other cells, which must fit and be aligned.
* `WriteView.place` — the position of a cell in the destination, in bytes.
* `WriteView.write`, `WriteView.writeBytes` — a lane's write of one cell.
-/

set_option autoImplicit false

namespace BlockMachine

/-- A run of cells in a destination. -/
structure WriteView where
  /-- The address of the first cell. -/
  address : Nat
  /-- The bytes of the destination that lie before the first cell. -/
  position : Nat
  /-- The bytes of a cell. -/
  cell : Nat
  /-- The number of cells. -/
  length : Nat
  deriving DecidableEq, Repr

namespace WriteView

/-- All cells of a destination that starts at an address. -/
def whole (address cell length : Nat) : WriteView := ⟨address, 0, cell, length⟩

/-- The cells from number `start` on. -/
def dropFirst (view : WriteView) (start : Nat) : Except Panic WriteView :=
  if start ≤ view.length then
    .ok ⟨view.address + start * view.cell, view.position + start * view.cell, view.cell,
      view.length - start⟩
  else .error (.offsetOutOfRange start view.length)

/-- The first bytes of the view as `length` cells of another size, whose address must be a multiple
of that size. -/
def cast (view : WriteView) (cell length : Nat) : Except Panic WriteView := do
  let wanted ← Word.mul length cell
  let present ← Word.mul view.length view.cell
  if present < wanted then throw .castTooLong
  if view.address % cell ≠ 0 then throw (.castMisaligned (view.address % cell))
  return ⟨view.address, view.position, cell, length⟩

/-- What is shown of the view in a debug text; the address is kept back. -/
def describe (view : WriteView) : String :=
  s!"UnsafeSlice \x7b ptr: PTR, len: {view.length} \x7d"

/-- Where a cell starts in the destination, in bytes. -/
def place (view : WriteView) (index : Nat) : Except Panic Nat :=
  if index < view.length then .ok (view.position + index * view.cell)
  else .error (.writeOutOfRange index view.length)

/-- Writes an element; the cells are elements of the destination. -/
def write {σ α : Type} (view : WriteView) (index : Nat) (value : α) : Lane σ α Unit :=
  if index < view.length then .ask (.write (view.position / view.cell + index) value) .done
  else .fault (.writeOutOfRange index view.length)

/-- Writes the bytes of a cell. -/
def writeBytes {σ α : Type} (view : WriteView) (index : Nat) (bytes : List UInt8) :
    Lane σ α Unit := do
  let position ← Lane.ofExcept (view.place index)
  .ask (.writeBytes position bytes) .done

end WriteView

end BlockMachine
