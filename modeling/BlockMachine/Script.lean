import BlockMachine.BlockCopy
import BlockMachine.BlockScan
import BlockMachine.Memory.Scalar
import BlockMachine.Operator

/-!
# Scripts of lanes

A small language for kernels.  Every lane has one register, the block has one slot for each lane, and
all lanes take the barrier after each step.

* `Script.Step` — the steps of a script.
* `Script.step` — what a lane does in a step; the result is its register afterwards.
* `Script.kernel` — the launch of a script.
-/

set_option autoImplicit false

namespace BlockMachine

namespace Lane

variable {σ α β : Type}

/-- A program with its operator built in: it asks nobody to combine two values. -/
def withOperator (op : σ → σ → Except Panic σ) : Lane σ α β → Lane σ α β
  | done result => done result
  | fault panic => fault panic
  | barrier next => barrier (next.withOperator op)
  | ask (.combine left right) next =>
    match op left right with
    | .ok value => (next value).withOperator op
    | .error panic => fault panic
  | ask request next => ask request fun answer => (next answer).withOperator op

end Lane

namespace Script

/-- What a lane knows about itself. -/
inductive Quantity where
  | lane | block | dimension | grid
  /-- 1 if copies in wide words are reliable, else 0. -/
  | wide
  /-- The number of the lane in the whole grid. -/
  | global
  | zero
  deriving DecidableEq, Repr

/-- The quantity that a word names; an unknown word stands for zero. -/
def Quantity.ofName : String → Quantity
  | "lane" => lane
  | "block" => block
  | "dim" => dimension
  | "grid" => grid
  | "wide" => wide
  | "global" => global
  | _ => zero

/-- The number of a lane in the whole grid. -/
def globalIndex (context : LaneContext) : Nat := context.block * context.blockSize + context.lane

/-- The value of a quantity. -/
def Quantity.value (context : LaneContext) : Quantity → Int64
  | lane => Int64.ofNat context.lane
  | block => Int64.ofNat context.block
  | dimension => Int64.ofNat context.blockSize
  | grid => Int64.ofNat context.gridSize
  | wide => if context.wideCopy then 1 else 0
  | global => Int64.ofNat (globalIndex context)
  | zero => 0

/-- The steps of a script.  `register` is the register of the lane. -/
inductive Step where
  /-- `register := quantity` -/
  | take (quantity : Quantity)
  /-- `register := register + quantity` -/
  | accumulate (quantity : Quantity)
  | constant (value : Int64)
  | add (value : Int64)
  | multiply (value : Int64)
  /-- Stores the register in the slot a number of places after the lane's own, around the end. -/
  | put (shift : Int)
  /-- Loads the register from such a slot. -/
  | get (shift : Int)
  /-- Scans the slots, all of them or the first ones. -/
  | scan (count : Option Nat) (op : Operator)
  /-- Writes the register a number of places after the lane's own. -/
  | write (shift : Int)
  /-- Copies elements of the source by the whole block, each block after the one before it. -/
  | copy (start length first : Nat)
  /-- Panics in the lanes that match; an absent number matches all. -/
  | panic (block lane : Option Nat) (payload : Payload)

/-- The slot a number of places after a lane's own, counted around the end.  The sum wraps. -/
def slotAt (context : LaneContext) (shift : Int) : Nat :=
  ((Int64.ofInt (context.lane + shift)).toInt % context.blockSize).toNat

/-- Whether a lane is one of those named. -/
def isNamed (context : LaneContext) (block lane : Option Nat) : Bool :=
  block.all (· == context.block) && lane.all (· == context.lane)

/-- The copy step of a lane. -/
def copyStep (context : LaneContext) (source : Placed Int64) (output : WriteView)
    (start length first : Nat) : Lane Int64 Int64 Unit := do
  let stop ← Lane.ofExcept (Word.add start length)
  let piece ← Lane.ofExcept (source.slice Element.int64.size start stop)
  let shift ← Lane.ofExcept (Word.mul context.block length)
  let place ← Lane.ofExcept (Word.add first shift)
  let _ ← BlockCopy.copy Element.int64 context piece output place

/-- What a lane does in a step; the result is its register afterwards. -/
def step (context : LaneContext) (source : Placed Int64) (output : WriteView) (register : Int64) :
    Step → Lane Int64 Int64 Int64
  | .take quantity => return quantity.value context
  | .accumulate quantity => return register + quantity.value context
  | .constant value => return value
  | .add value => return register + value
  | .multiply value => return register * value
  | .put shift => do
    Lane.store (slotAt context shift) register
    return register
  | .get shift => Lane.load (slotAt context shift)
  | .scan count op => do
    let count := count.getD context.blockSize
    (BlockScan.scanFirst context context.blockSize count).withOperator (NumberType.int64.apply op)
    return register
  | .write shift => do
    output.write ((globalIndex context + shift) % Word.limit).toNat register
    return register
  | .copy start length first => do
    copyStep context source output start length first
    return register
  | .panic block lane payload =>
    if isNamed context block lane then .fault (.raised payload) else return register

/-- The steps of a script, each followed by a barrier. -/
def program (context : LaneContext) (source : Placed Int64) (output : WriteView) :
    (register : Int64) → List Step → Lane Int64 Int64 Unit
  | _, [] => return ()
  | register, first :: rest => do
    let register ← step context source output register first
    Lane.sync
    program context source output register rest

/-- The launch of a script.  If `refusal` is given, no block gets its slots: they panic with it. -/
def kernel (steps : List Step) (source : Placed Int64) (output : WriteView)
    (refusal : Option Payload) : Kernel Int64 Int64 where
  slots threads :=
    match refusal with
    | some payload => .error (.raised payload)
    | none => .ok (Slots.blank threads 0)
  program context := program context source output 0 steps
  callbacks :=
    ⟨fun index _ => .error (.indexOutOfBounds 0 index), fun left _ => .ok left, Element.int64⟩

end Script

end BlockMachine
