/-!
# Panics

Running code stops with a *panic* when it meets a fault of its own: a sum that leaves the machine
word, an index past the end, a broken assertion, or a value raised by the caller's code.  A panic on
a lane of a block becomes a kernel fault of the launch; a panic on the host reaches the caller.

* `Panic` — the causes.
* `Panic.text` — the wording of each cause; a payload that is no text has none.
* `Panic.report` — the wording that a launch reports, with one fixed text for the others.
-/

set_option autoImplicit false

namespace BlockMachine

/-- The word operations whose result may leave the machine word. -/
inductive Arithmetic where
  | add | subtract | multiply | divide | remainder
  deriving DecidableEq, Repr

/-- The verb of an overflow report. -/
def Arithmetic.verb : Arithmetic → String
  | .add => "add"
  | .subtract => "subtract"
  | .multiply => "multiply"
  | .divide => "divide"
  | .remainder => "calculate the remainder"

/-- What a piece of code raised on purpose. -/
inductive Payload where
  /-- A fixed text. -/
  | literal (text : String)
  /-- A text put together at run time. -/
  | composed (text : String)
  /-- A value that is no text. -/
  | value
  /-- The signal that releases a lane from a barrier which a sibling will never reach. -/
  | barrierPoisoned
  deriving DecidableEq, Repr

/-- The causes of a panic. -/
inductive Panic where
  | overflow (operation : Arithmetic)
  | divisionByZero
  | remainderByZero
  | capacityOverflow
  | indexOutOfBounds (length index : Nat)
  | bitOutOfBounds (length index : Nat)
  | rangeStartOutOfBounds (start length : Nat)
  | rangeEndOutOfBounds (stop length : Nat)
  | zeroStride
  | alignmentNotPowerOfTwo
  | intervalOutOfRange (index count : Nat)
  | lengthsDiffer (left right : Nat)
  | scanOutputTooShort (available required : Nat)
  | scanWiderThanBlock
  | offsetOutOfRange (start length : Nat)
  | writeOutOfRange (index length : Nat)
  | castTooLong
  | castMisaligned (excess : Nat)
  | wordsMisaligned
  | copyPastEnd (count : Nat)
  | bytesPastEnd (count available : Nat)
  | raised (payload : Payload)
  deriving DecidableEq, Repr

namespace Panic

/-- The wording of a panic; `none` for a payload that carries no text. -/
def text : Panic → Option String
  | overflow operation => some s!"attempt to {operation.verb} with overflow"
  | divisionByZero => some "attempt to divide by zero"
  | remainderByZero => some "attempt to calculate the remainder with a divisor of zero"
  | capacityOverflow => some "capacity overflow"
  | indexOutOfBounds length index =>
    some s!"index out of bounds: the len is {length} but the index is {index}"
  | bitOutOfBounds length index => some s!"index {index} out of bounds: {length}"
  | rangeStartOutOfBounds start length =>
    some s!"range start index {start} out of range for slice of length {length}"
  | rangeEndOutOfBounds stop length =>
    some s!"range end index {stop} out of range for slice of length {length}"
  | zeroStride => some "assertion failed: step != 0"
  | alignmentNotPowerOfTwo => some "assertion failed: align.is_power_of_two()"
  | intervalOutOfRange index count =>
    some s!"interval {index} out of range for a decomposition of {count} intervals"
  | lengthsDiffer left right =>
    some s!"assertion `left == right` failed\n  left: {left}\n right: {right}"
  | scanOutputTooShort available required =>
    some s!"inclusive_scan output of length {available} cannot hold {required} elements"
  | scanWiderThanBlock =>
    some "assertion failed: n <= buffer.len() && n <= ctx.block_dimension()"
  | offsetOutOfRange start length =>
    some s!"offset {start} out of range for UnsafeSlice of length {length}"
  | writeOutOfRange index length =>
    some s!"write index {index} out of range for UnsafeSlice of length {length}"
  | castTooLong =>
    some ("assertion failed: len * std::mem::size_of::<U>() <= " ++
      "self.len * std::mem::size_of::<T>()")
  | castMisaligned excess => some s!"assertion `left == right` failed\n  left: {excess}\n right: 0"
  | wordsMisaligned => some "cast_slice>TargetAlignmentGreaterAndInputNotAligned"
  | copyPastEnd count => some s!"block_copy of {count} elements past the end of the destination"
  | bytesPastEnd count available =>
    some s!"trivial_copy of {count} bytes into a destination of {available}"
  | raised (.literal text) => some text
  | raised (.composed text) => some text
  | raised .value => none
  | raised .barrierPoisoned => none

/-- The wording that a launch reports: the text itself, or one fixed sentence if there is none. -/
def report (panic : Panic) : String :=
  panic.text.getD "lane panicked with a non-string payload"

/-- Whether a panic is the release signal of a poisoned barrier, which reports no fault of its own. -/
def isRelease (panic : Panic) : Bool :=
  panic == .raised .barrierPoisoned

end Panic

end BlockMachine
