import BlockMachine.BlockScan
import BlockMachine.Decomposition
import BlockMachine.Memory.WriteView
import BlockMachine.View

/-!
# Reduction of intervals

Each block combines the items of its interval from the left and writes one value.  It takes the
interval in chunks of one item for each lane; the lanes scan a chunk together, and the first lane
combines the last entry of the scan with what it carries from the chunks before.

* `Reduction.chunks` — the chunks of an interval.
* `Reduction.program` — what a lane does.
* `Reduction.reduceOn` — the checks, the log line and the launch; `Reduction.reduce` is the same on a host that
  starts every lane.
-/

set_option autoImplicit false

namespace BlockMachine

namespace Reduction

variable {σ : Type}

/-- The first index and the length of each chunk of an interval; all but the last are full. -/
def chunks (interval : Interval) (width : Nat) : List (Nat × Nat) :=
  (List.range ((interval.length + (width - 1)) / width)).map fun turn =>
    let start := interval.start + turn * width
    (start, min width (interval.stop - start))

/-- What the first lane carries after a chunk. -/
def carryOver : Option σ → σ → Lane σ σ (Option σ)
  | none, total => return some total
  | some carry, total => return some (← Lane.combine carry total)

/-- One chunk of `n` items from index `start` on; the result is the carry after it. -/
def chunk (context : LaneContext) (slots : Nat) (carry : Option σ) (start n : Nat) :
    Lane σ σ (Option σ) := do
  if context.lane < n then
    let index ← Lane.ofExcept (Word.add start context.lane)
    let value ← Lane.fetch index
    Lane.store context.lane value
  Lane.sync
  BlockScan.scanFirst context slots n
  let carry ← if context.lane = 0 then do
      let last ← Lane.ofExcept (Word.sub n 1)
      let total ← Lane.load last
      carryOver carry total
    else pure carry
  Lane.sync
  return carry

/-- All chunks, one after the other. -/
def overChunks (context : LaneContext) (slots : Nat) :
    Option σ → List (Nat × Nat) → Lane σ σ (Option σ)
  | carry, [] => return carry
  | carry, (start, n) :: rest => do
    let carry ← chunk context slots carry start n
    overChunks context slots carry rest

/-- What a lane does: its part of every chunk, and for the first lane the write of the result. -/
def program (cut : Decomposition) (output : WriteView) (context : LaneContext) :
    Lane σ σ Unit := do
  let interval ← Lane.ofExcept (cut.interval context.block)
  let carry ← overChunks context context.blockSize none (chunks interval context.blockSize)
  match carry with
  | some total => if context.lane = 0 then output.write context.block total
  | none => return ()

/-- The launch of a reduction. -/
def kernel (blank : σ) (op : σ → σ → Except Panic σ) (view : View σ) (cut : Decomposition)
    (outputLength : Nat) : Kernel σ σ where
  slots threads := .ok (Slots.blank threads blank)
  program := program cut (.whole 0 1 outputLength)
  callbacks := ⟨view.item, op, Element.cloned 1⟩

/-- Reduces each interval of a decomposition of a view into the entry of its number, on a host, the blocks in a
given order. -/
def reduceOn (spawner : Spawner) (order : Nat → List Nat) (config : LaunchConfig) (blank : σ)
    (op : σ → σ → Except Panic σ) (view : View σ) (cut : Decomposition) (store : Store σ) :
    Except Failure Unit × Store σ :=
  if view.length ≠ cut.total then
    (.error (.panic (.lengthsDiffer view.length cut.total)), store)
  else if store.output.size < cut.count then
    (.error (.error (.outputTooSmall cut.count store.output.size)), store)
  else if cut.count = 0 then (.ok (), store)
  else
    launchOn spawner order config (kernel blank op view cut store.output.size) cut.count config.width
      { store with journal := store.journal.note (.reduction cut.total cut.count) }

/-- Reduces each interval of a decomposition of a view into the entry of its number, the blocks in a given order
and all lanes started. -/
def reduceInOrder (order : Nat → List Nat) (config : LaunchConfig) (blank : σ)
    (op : σ → σ → Except Panic σ) (view : View σ) (cut : Decomposition) (store : Store σ) :
    Except Failure Unit × Store σ :=
  reduceOn .willing order config blank op view cut store

/-- Reduces each interval of a decomposition of a view into the entry of its number, all lanes started. -/
def reduce (config : LaunchConfig) (blank : σ) (op : σ → σ → Except Panic σ) (view : View σ)
    (cut : Decomposition) (store : Store σ) : Except Failure Unit × Store σ :=
  reduceInOrder config.scheduling.order config blank op view cut store

theorem reduceInOrder_def (order : Nat → List Nat) (config : LaunchConfig) (blank : σ)
    (op : σ → σ → Except Panic σ) (view : View σ) (cut : Decomposition) (store : Store σ) :
    reduceInOrder order config blank op view cut store =
      if view.length ≠ cut.total then
        (.error (.panic (.lengthsDiffer view.length cut.total)), store)
      else if store.output.size < cut.count then
        (.error (.error (.outputTooSmall cut.count store.output.size)), store)
      else if cut.count = 0 then (.ok (), store)
      else
        launchInOrder order config (kernel blank op view cut store.output.size) cut.count config.width
          { store with journal := store.journal.note (.reduction cut.total cut.count) } := rfl

end Reduction

end BlockMachine
