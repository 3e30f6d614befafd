import BlockMachine.Config
import BlockMachine.Document.Problem
import BlockMachine.Panic

/-!
# Errors of the library

* `LibraryError` — what an operation answers when it cannot do its work.
* `Failure` — the ways in which a call may end without a result: an error, a panic that unwinds into
  the caller, or lanes that wait for each other without end.
-/

set_option autoImplicit false

namespace BlockMachine

/-- The answers of an operation that could not do its work. -/
inductive LibraryError where
  /-- Temporary storage could not be had; no output has been written. -/
  | allocationFailed (requested elementSize : Nat)
  | outputTooSmall (required available : Nat)
  | lengthMismatch (input stencil : Nat)
  | invalidConfig (problem : ConfigProblem)
  /-- The host could not start a lane of a block. -/
  | launchFailed (block : Nat) (cause : String)
  | kernelFault (block : Nat) (message : String)
  /-- A configuration document that cannot be read. -/
  | unreadable (error : DocumentError)
  deriving DecidableEq, Repr

/-- The wording of an error. -/
def LibraryError.message : LibraryError → String
  | allocationFailed requested elementSize =>
    s!"Temporary allocation of {requested} elements ({elementSize} bytes each) failed"
  | outputTooSmall required available =>
    s!"Output buffer too small: {required} elements required, {available} available"
  | lengthMismatch input stencil =>
    s!"Stencil shorter than input: input has {input} elements, stencil has {stencil}"
  | invalidConfig problem => s!"Invalid launch configuration: {problem.message}"
  | launchFailed block cause =>
    s!"Kernel launch failed: block {block}: could not spawn lane thread: {cause}"
  | kernelFault block message => s!"Kernel fault in block {block}: {message}"
  | unreadable error => s!"Serde JSON error: {error.message}"

/-- The ways in which a call may end without a result. -/
inductive Failure where
  | error (error : LibraryError)
  /-- A panic that unwinds into the caller. -/
  | panic (panic : Panic)
  /-- Lanes of a block that wait for a sibling which has already ended. -/
  | deadlock
  deriving DecidableEq, Repr

namespace Failure

/-- A panic of host code, as a failure of the call. -/
def ofPanic {α : Type} : Except Panic α → Except Failure α
  | .ok value => .ok value
  | .error cause => .error (.panic cause)

/-- A refused configuration, as a failure of the call. -/
def ofProblem {α : Type} : Except ConfigProblem α → Except Failure α
  | .ok value => .ok value
  | .error problem => .error (.error (.invalidConfig problem))

end Failure

end BlockMachine
