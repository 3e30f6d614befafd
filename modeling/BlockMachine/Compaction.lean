import BlockMachine.BlockCopy
import BlockMachine.HostScan
import BlockMachine.Memory.Temporary
import BlockMachine.Reduction

/-!
# Compaction

The elements of the input whose flag is 1 are moved to the front of the output, in their order.  The
blocks first count their flags; the counts, scanned on the host, say where each block writes; then the
blocks go through their intervals again, chunk by chunk, and write.

* `Compaction.program` — what a lane of the writing launch does.
* `Compaction.compactFlagsOn` — the two launches and what lies between them, for any view of flags.
* `Compaction.copyIfOn`, `Compaction.copyIfUnstenciledOn`, `Compaction.removeCopyIfOn` — by a predicate.

All of these take the hosts that start the lanes of the two launches.  `Compaction.compactFlags`, `Compaction.copyIf`
and the others without a host are the same where every lane is started.
-/

set_option autoImplicit false

namespace BlockMachine

namespace Compaction

variable {α S : Type}

/-- What the writing launch is given. -/
structure Task (α : Type) where
  element : Element α
  input : Placed α
  /-- For each block the number of selected elements up to the end of its interval. -/
  offsets : Array Nat
  output : WriteView
  cut : Decomposition

/-- Clones element `index` of the input to its place, which follows from its rank among the selected
elements of the chunk, counted from 1. -/
def scatter (task : Task α) (context : LaneContext) (outFirst index : Nat) : Lane Nat α Unit := do
  let rank ← Lane.load context.lane
  let place ← Lane.ofExcept (Word.add outFirst rank)
  let place ← Lane.ofExcept (Word.sub place 1)
  let value ← Lane.ofExcept (task.input.get index)
  let value ← Lane.clone value
  task.output.write place value

/-- A chunk of one element for each lane.  The result is the place for the next chunk. -/
def fullChunk (task : Task α) (context : LaneContext) (outFirst base : Nat) :
    Lane Nat α Nat := do
  let width := context.blockSize
  let index ← Lane.ofExcept (Word.add base context.lane)
  let flag ← Lane.fetch index
  Lane.store context.lane flag
  Lane.sync
  BlockScan.scan context width
  let last ← Lane.ofExcept (Word.sub width 1)
  let selected ← Lane.load last
  if selected = width then do
    let source ← Lane.ofExcept (task.input.slice task.element.size base (base + width))
    let _ ← BlockCopy.copy task.element context source task.output outFirst
  else if flag ≠ 0 then scatter task context outFirst index
  let outNext ← Lane.ofExcept (Word.add outFirst selected)
  Lane.sync
  return outNext

/-- The full chunks from index `base` on, a number of them. -/
def fullChunks (task : Task α) (context : LaneContext) :
    Nat → (outFirst base : Nat) → Lane Nat α (Nat × Nat)
  | 0, outFirst, base => return (outFirst, base)
  | count + 1, outFirst, base => do
    let outFirst ← fullChunk task context outFirst base
    fullChunks task context count outFirst (base + context.blockSize)

/-- The flag of a lane in the last chunk; lanes past the interval have 0 and ask for nothing. -/
def lastFlag (index stop : Nat) : Lane Nat α Nat :=
  if index < stop then Lane.fetch index else return 0

/-- The chunk at the end of an interval that has fewer elements than there are lanes. -/
def lastChunk (task : Task α) (context : LaneContext) (outFirst base stop : Nat) :
    Lane Nat α Unit := do
  let index ← Lane.ofExcept (Word.add base context.lane)
  let flag ← lastFlag index stop
  Lane.store context.lane flag
  Lane.sync
  BlockScan.scan context context.blockSize
  if index < stop ∧ flag ≠ 0 then scatter task context outFirst index

/-- Where a block starts to write. -/
def firstPlace (offsets : Array Nat) (block : Nat) : Except Panic Nat :=
  if block = 0 then .ok 0
  else Slots.load offsets (block - 1)

/-- What a lane of the writing launch does.  The full chunks are those that end within the interval; each end is a
word, as an input of fewer than `2^63` elements and a block of at most `maxThreadsPerBlock` lanes make sure. -/
def program (task : Task α) (context : LaneContext) : Lane Nat α Unit := do
  let interval ← Lane.ofExcept (task.cut.interval context.block)
  let outFirst ← Lane.ofExcept (firstPlace task.offsets context.block)
  let count := interval.length / context.blockSize
  let (outFirst, base) ← fullChunks task context count outFirst interval.start
  if base < interval.stop then lastChunk task context outFirst base interval.stop

/-- The writing launch. -/
def kernel (flags : View Nat) (task : Task α) : Kernel Nat α where
  slots threads := .ok (Slots.blank threads 0)
  program := program task
  callbacks := ⟨flags.item, Word.add, task.element⟩

/-- What a compaction logs when it has succeeded. -/
def report (selected total blocks : Nat) (journal : Journal) : Journal :=
  (journal.note (.compaction selected total blocks)).note
    (.metric [("event", "copy_if"), ("elements", toString total), ("blocks", toString blocks),
      ("selected", toString selected)])

/-- The orders in which the blocks of the two launches run. -/
structure Orders where
  counting : Nat → List Nat
  writing : Nat → List Nat

/-- Both launches in the order of a configuration. -/
def Orders.ofConfig (config : LaunchConfig) : Orders :=
  ⟨config.scheduling.order, config.scheduling.order⟩

/-- The hosts of the two launches. -/
structure Hosts where
  counting : Spawner
  writing : Spawner

/-- Hosts that start every lane. -/
def Hosts.willing : Hosts := ⟨.willing, .willing⟩

/-- The number of selected elements up to the end of each interval: the counting launch and the scan
of its results. -/
def offsetsOn (spawner : Spawner) (order : Nat → List Nat) (config : LaunchConfig) (flags : View Nat)
    (cut : Decomposition) (journal : Journal) : Except Failure (Array Nat) × Journal :=
  match Temporary.allocate config 8 cut.count 0 journal with
  | (.error failure, journal) => (.error failure, journal)
  | (.ok counts, journal) =>
    match Reduction.reduceOn spawner order config 0 Word.add flags cut ⟨counts, journal⟩ with
    | (.error failure, store) => (.error failure, store.journal)
    | (.ok (), store) =>
      let scan := HostScan.inPlace Word.add store.output.toList
      (Failure.ofPanic (do scan.result; return scan.output.toArray), store.journal)

/-- Writes the elements whose flag is 1 and returns their number, if the output can hold them. -/
def writeOn (spawner : Spawner) (order : Nat → List Nat) (config : LaunchConfig) (flags : View Nat)
    (task : Task α) (store : Store α) : Except Failure Nat × Store α :=
  let selected := task.offsets.back?.getD 0
  if store.output.size < selected then
    (.error (.error (.outputTooSmall selected store.output.size)), store)
  else
    match launchOn spawner order config (kernel flags task) task.cut.count config.width store with
    | (.error failure, store) => (.error failure, store)
    | (.ok (), store) =>
      (.ok selected,
        { store with journal := report selected task.input.length task.cut.count store.journal })

/-- Compacts the input by a view of flags of the same length. -/
def compactFlagsOn (hosts : Hosts) (orders : Orders) (config : LaunchConfig) (element : Element α)
    (input : Placed α) (flags : View Nat) (outputAddress : Nat) (store : Store α) :
    Except Failure Nat × Store α :=
  if input.length = 0 then (.ok 0, store)
  else if flags.length ≠ input.length then
    (.error (.panic (.lengthsDiffer flags.length input.length)), store)
  else
    match Failure.ofProblem config.validate with
    | .error failure => (.error failure, store)
    | .ok () =>
      match Decomposition.forLaunch config input.length with
      | .error panic => (.error (.panic panic), store)
      | .ok cut =>
        match offsetsOn hosts.counting orders.counting config flags cut store.journal with
        | (.error failure, journal) => (.error failure, { store with journal := journal })
        | (.ok offsets, journal) =>
          let output := BlockCopy.destination element store.output outputAddress
          writeOn hosts.writing orders.writing config flags ⟨element, input, offsets, output, cut⟩
            { store with journal := journal }

/-- Copies the elements whose stencil value satisfies a predicate, the blocks in given orders.  Only
as many stencil values are looked at as there are elements. -/
def copyIfOn (hosts : Hosts) (orders : Orders) (config : LaunchConfig) (element : Element α)
    (input : Placed α) (stencil : Array S) (selector : Selector S) (outputAddress : Nat)
    (store : Store α) : Except Failure Nat × Store α :=
  if stencil.size < input.length then
    (.error (.error (.lengthMismatch input.length stencil.size)), store)
  else
    let flags := (View.ofArray (stencil.extract 0 input.length)).flags selector
    compactFlagsOn hosts orders config element input flags outputAddress store

/-- Copies the elements that satisfy a predicate themselves, the blocks in given orders. -/
def copyIfUnstenciledOn (hosts : Hosts) (orders : Orders) (config : LaunchConfig) (element : Element α)
    (input : Placed α) (selector : Selector α) (outputAddress : Nat) (store : Store α) :
    Except Failure Nat × Store α :=
  copyIfOn hosts orders config element input input.values selector outputAddress store

/-- Copies the elements whose stencil value does not satisfy a predicate, the blocks in given orders. -/
def removeCopyIfOn (hosts : Hosts) (orders : Orders) (config : LaunchConfig) (element : Element α)
    (input : Placed α) (stencil : Array S) (selector : Selector S) (outputAddress : Nat)
    (store : Store α) : Except Failure Nat × Store α :=
  copyIfOn hosts orders config element input stencil selector.negate outputAddress store

/-! ## Hosts that start every lane -/

/-- The number of selected elements up to the end of each interval, all lanes started. -/
def offsets (order : Nat → List Nat) (config : LaunchConfig) (flags : View Nat)
    (cut : Decomposition) (journal : Journal) : Except Failure (Array Nat) × Journal :=
  offsetsOn .willing order config flags cut journal

/-- Writes the elements whose flag is 1 and returns their number, all lanes started. -/
def write (order : Nat → List Nat) (config : LaunchConfig) (flags : View Nat) (task : Task α)
    (store : Store α) : Except Failure Nat × Store α :=
  writeOn .willing order config flags task store

/-- Compacts the input by a view of flags of the same length, all lanes started. -/
def compactFlags (orders : Orders) (config : LaunchConfig) (element : Element α)
    (input : Placed α) (flags : View Nat) (outputAddress : Nat) (store : Store α) :
    Except Failure Nat × Store α :=
  compactFlagsOn .willing orders config element input flags outputAddress store

/-- Copies the elements whose stencil value satisfies a predicate, the blocks in given orders and all lanes
started. -/
def copyIfInOrder (orders : Orders) (config : LaunchConfig) (element : Element α)
    (input : Placed α) (stencil : Array S) (selector : Selector S) (outputAddress : Nat)
    (store : Store α) : Except Failure Nat × Store α :=
  copyIfOn .willing orders config element input stencil selector outputAddress store

/-- Copies the elements that satisfy a predicate themselves, the blocks in given orders and all lanes started. -/
def copyIfUnstenciledInOrder (orders : Orders) (config : LaunchConfig) (element : Element α)
    (input : Placed α) (selector : Selector α) (outputAddress : Nat) (store : Store α) :
    Except Failure Nat × Store α :=
  copyIfInOrder orders config element input input.values selector outputAddress store

/-- Copies the elements whose stencil value does not satisfy a predicate, the blocks in given orders and all lanes
started. -/
def removeCopyIfInOrder (orders : Orders) (config : LaunchConfig) (element : Element α)
    (input : Placed α) (stencil : Array S) (selector : Selector S) (outputAddress : Nat)
    (store : Store α) : Except Failure Nat × Store α :=
  copyIfInOrder orders config element input stencil selector.negate outputAddress store

/-- Copies the elements whose stencil value satisfies a predicate. -/
def copyIf (config : LaunchConfig) (element : Element α) (input : Placed α) (stencil : Array S)
    (selector : Selector S) (outputAddress : Nat) (store : Store α) :
    Except Failure Nat × Store α :=
  copyIfInOrder (.ofConfig config) config element input stencil selector outputAddress store

/-- Copies the elements that satisfy a predicate themselves. -/
def copyIfUnstenciled (config : LaunchConfig) (element : Element α) (input : Placed α)
    (selector : Selector α) (outputAddress : Nat) (store : Store α) :
    Except Failure Nat × Store α :=
  copyIfUnstenciledInOrder (.ofConfig config) config element input selector outputAddress store

/-- Copies the elements whose stencil value does not satisfy a predicate. -/
def removeCopyIf (config : LaunchConfig) (element : Element α) (input : Placed α)
    (stencil : Array S) (selector : Selector S) (outputAddress : Nat) (store : Store α) :
    Except Failure Nat × Store α :=
  removeCopyIfInOrder (.ofConfig config) config element input stencil selector outputAddress store

/-! ### Their equations -/

theorem offsets_def (order : Nat → List Nat) (config : LaunchConfig) (flags : View Nat) (cut : Decomposition)
    (journal : Journal) :
    offsets order config flags cut journal =
      match Temporary.allocate config 8 cut.count 0 journal with
      | (.error failure, journal) => (.error failure, journal)
      | (.ok counts, journal) =>
        match Reduction.reduceInOrder order config 0 Word.add flags cut ⟨counts, journal⟩ with
        | (.error failure, store) => (.error failure, store.journal)
        | (.ok (), store) =>
          let scan := HostScan.inPlace Word.add store.output.toList
          (Failure.ofPanic (do scan.result; return scan.output.toArray), store.journal) := rfl

theorem write_def (order : Nat → List Nat) (config : LaunchConfig) (flags : View Nat) (task : Task α)
    (store : Store α) :
    write order config flags task store =
      let selected := task.offsets.back?.getD 0
      if store.output.size < selected then
        (.error (.error (.outputTooSmall selected store.output.size)), store)
      else
        match launchInOrder order config (kernel flags task) task.cut.count config.width store with
        | (.error failure, store) => (.error failure, store)
        | (.ok (), store) =>
          (.ok selected,
            { store with journal := report selected task.input.length task.cut.count store.journal }) := rfl

theorem compactFlags_def (orders : Orders) (config : LaunchConfig) (element : Element α) (input : Placed α)
    (flags : View Nat) (outputAddress : Nat) (store : Store α) :
    compactFlags orders config element input flags outputAddress store =
      if input.length = 0 then (.ok 0, store)
      else if flags.length ≠ input.length then
        (.error (.panic (.lengthsDiffer flags.length input.length)), store)
      else
        match Failure.ofProblem config.validate with
        | .error failure => (.error failure, store)
        | .ok () =>
          match Decomposition.forLaunch config input.length with
          | .error panic => (.error (.panic panic), store)
          | .ok cut =>
            match offsets orders.counting config flags cut store.journal with
            | (.error failure, journal) => (.error failure, { store with journal := journal })
            | (.ok offsets, journal) =>
              let output := BlockCopy.destination element store.output outputAddress
              write orders.writing config flags ⟨element, input, offsets, output, cut⟩
                { store with journal := journal } := rfl

theorem copyIfInOrder_def (orders : Orders) (config : LaunchConfig) (element : Element α) (input : Placed α)
    (stencil : Array S) (selector : Selector S) (outputAddress : Nat) (store : Store α) :
    copyIfInOrder orders config element input stencil selector outputAddress store =
      if stencil.size < input.length then
        (.error (.error (.lengthMismatch input.length stencil.size)), store)
      else
        compactFlags orders config element input
          ((View.ofArray (stencil.extract 0 input.length)).flags selector) outputAddress store := rfl

end Compaction

end BlockMachine
