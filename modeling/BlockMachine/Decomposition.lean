import BlockMachine.Config

/-!
# Decomposition of work

`[0, total)` is cut into intervals, one for each block.  The intervals follow each other, none is
empty, and their lengths differ by one at most, the longer ones first.

* `Decomposition.even` — at most the wanted number of intervals, and no more than there are indices.
* `Decomposition.interval` — the interval of a block, in checked word arithmetic.
* `Decomposition.forLaunch` — the decomposition that the algorithms use: one block for as many
  indices as a block has lanes, within the limit of the configuration.
-/

set_option autoImplicit false

namespace BlockMachine

/-- The indices from `start` up to but not including `stop`. -/
structure Interval where
  start : Nat
  stop : Nat
  deriving DecidableEq, Repr

namespace Interval

/-- The number of indices. -/
def length (interval : Interval) : Nat := interval.stop - interval.start

/-- Whether there is no index. -/
def isEmpty (interval : Interval) : Bool := interval.start == interval.stop

end Interval

/-- An even cut of `[0, total)` into `count` intervals. -/
structure Decomposition where
  total : Nat
  count : Nat
  count_le_total : count ≤ total

namespace Decomposition

/-- The cut into the wanted number of intervals, or into one for each index if those are fewer. -/
def even (total wanted : Nat) : Decomposition :=
  ⟨total, min wanted total, Nat.min_le_right ..⟩

/-- The length of the shorter intervals. -/
def shortLength (cut : Decomposition) : Nat := cut.total / cut.count

/-- The number of intervals that are longer by one; they come first. -/
def longCount (cut : Decomposition) : Nat := cut.total % cut.count

/-- The interval of block `index`. -/
def interval (cut : Decomposition) (index : Nat) : Except Panic Interval := do
  if cut.count ≤ index then throw (.intervalOutOfRange index cut.count)
  let longLength ← Word.add cut.shortLength 1
  if index < cut.longCount then
    let start ← Word.mul longLength index
    let stop ← Word.add start longLength
    return ⟨start, stop⟩
  else
    let longPart ← Word.mul longLength cut.longCount
    let shortPart ← Word.mul cut.shortLength (index - cut.longCount)
    let start ← Word.add longPart shortPart
    let stop ← Word.add start cut.shortLength
    return ⟨start, stop⟩

/-- All intervals in the order of the blocks. -/
def intervals (cut : Decomposition) : Except Panic (List Interval) :=
  (List.range cut.count).mapM cut.interval

/-- One block for each `width` of `n` indices, the last one possibly for fewer. -/
def blocksFor (n width : Nat) : Nat := (n + (max width 1 - 1)) / max width 1

/-- The decomposition of `n` indices that the algorithms launch. -/
def forLaunch (config : LaunchConfig) (n : Nat) : Except Panic Decomposition := do
  let limit ← config.blockLimit
  return even n (min (blocksFor n config.width) limit)

end Decomposition

end BlockMachine
