import BlockMachine.Memory.LittleEndian
import BlockMachine.Memory.WriteView

/-!
# Views side by side

Several views of one piece of memory, made from each other and used in turn.  What is written through
one of them is seen through all.

* `ViewBoard` — the memory in words of four bytes, and its views in the order of their making.
* `ViewBoard.perform` — one use of a view; a use that panics makes no view and writes nothing.
-/

set_option autoImplicit false

namespace BlockMachine

/-- Words of memory with numbered views of them. -/
structure ViewBoard where
  words : Array (Vector UInt8 4)
  views : Array WriteView

namespace ViewBoard

/-- One use of a view. -/
inductive Use where
  /-- A new view of the cells from one of them on. -/
  | dropFirst (start : Nat)
  /-- A new view of the same bytes in other cells. -/
  | cast (cell length : Nat)
  | write (index value : Nat)
  | length
  | address
  | describe

/-- The answer to a use. -/
inductive Report where
  | made (view : Nat)
  | written (words : List Nat)
  | length (cells : Nat)
  | address (position : Nat)
  | text (text : String)
  deriving DecidableEq, Repr

/-- Memory with some words, at an address that every size of cell divides, and one view of all of it. -/
def ofWords (words : Array Nat) : ViewBoard :=
  ⟨words.map (LittleEndian.vector 4), #[.whole 0 4 words.size]⟩

/-- The words of the memory. -/
def toList (board : ViewBoard) : List Nat :=
  board.words.toList.map fun word => LittleEndian.toNat word.toList

/-- Adds a view. -/
def add (board : ViewBoard) (view : WriteView) : Report × ViewBoard :=
  (.made board.views.size, { board with views := board.views.push view })

/-- Writes the low bytes of a number from a position on. -/
def writeNumber (board : ViewBoard) (position cell value : Nat) : Report × ViewBoard :=
  let bytes := LittleEndian.ofNat cell value
  let board := { board with words := (Element.raw 4).writeBytes board.words position bytes }
  (.written board.toList, board)

/-- One use of a view: its answer, and the board afterwards. -/
def perform (board : ViewBoard) (view : WriteView) : Use → Except Panic (Report × ViewBoard)
  | .dropFirst start => return board.add (← view.dropFirst start)
  | .cast cell length => return board.add (← view.cast cell length)
  | .write index value => return board.writeNumber (← view.place index) view.cell value
  | .length => return (.length view.length, board)
  | .address => return (.address view.position, board)
  | .describe => return (.text view.describe, board)

/-- One use of the view of a number; there are no views of other numbers. -/
def performOn (board : ViewBoard) (number : Nat) (use : Use) : Except Panic (Report × ViewBoard) :=
  match board.views[number]? with
  | some view => board.perform view use
  | none => .error (.indexOutOfBounds board.views.size number)

end ViewBoard

end BlockMachine
