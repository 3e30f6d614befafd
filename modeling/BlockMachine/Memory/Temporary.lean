import BlockMachine.Error
import BlockMachine.Journal

/-!
# Temporary storage

Buffers that an algorithm allocates before it touches its output.  A request that is too large for the
word, for the limit of the configuration or for the host is refused.

* `Temporary.refusal` — when a request is refused, and what is logged then.
* `Temporary.allocate` — the buffer, filled with one value.
-/

set_option autoImplicit false

namespace BlockMachine

namespace Temporary

/-- The largest number of bytes that the configuration allows, if that is less than `bytes`. -/
def exceeded? (config : LaunchConfig) (bytes : Nat) : Option Nat :=
  match config.tempLimit with
  | some limit => if limit.toNat < bytes then some limit.toNat else none
  | none => none

/-- Whether a request for `length` elements is refused: its bytes leave the word, or exceed the limit,
or are more than one allocation can have. -/
def isRefused (config : LaunchConfig) (elementSize length : Nat) : Bool :=
  Word.limit ≤ length * elementSize || (exceeded? config (length * elementSize)).isSome ||
    Word.allocationLimit ≤ length * elementSize

/-- What a request logs: only that it exceeds the limit of the configuration. -/
def logged (config : LaunchConfig) (elementSize length : Nat) : Option Record :=
  if Word.limit ≤ length * elementSize then none
  else (exceeded? config (length * elementSize)).map (.overLimit (length * elementSize))

/-- A buffer of `length` elements that all have the same value, and the journal after the request. -/
def allocate {α : Type} (config : LaunchConfig) (elementSize length : Nat) (value : α)
    (journal : Journal) : Except Failure (Array α) × Journal :=
  let journal := match logged config elementSize length with
    | some record => journal.note record
    | none => journal
  if isRefused config elementSize length then
    (.error (.error (.allocationFailed length elementSize)), journal)
  else (.ok (Array.replicate length value), journal)

end Temporary

end BlockMachine
