import BlockMachine.Compaction
import BlockMachine.Mask

/-!
# Compaction by a validity mask

A set bit keeps its element, a clear bit drops it.

* `Compaction.copyIfMaskOn` — into an output; `Compaction.copyIfMask` is the same where every lane is started.
* `Compaction.filled` — a new list that holds one value and its clones.
* `Compaction.compactValid` — into a new list of just the right length.
-/

set_option autoImplicit false

namespace BlockMachine

namespace Compaction

variable {α : Type}

/-- Copies the elements whose bit is set.  Bits past the last element are not looked at. -/
def copyIfMaskOn (hosts : Hosts) (config : LaunchConfig) (element : Element α) (input : Placed α) (mask : Mask)
    (outputAddress : Nat) (store : Store α) : Except Failure Nat × Store α :=
  if mask.length < input.length then
    (.error (.error (.lengthMismatch input.length mask.length)), store)
  else
    let flags := (mask.take input.length).view.map fun bit => if bit then 1 else 0
    compactFlagsOn hosts (.ofConfig config) config element input flags outputAddress store

/-- Copies the elements whose bit is set, all lanes started. -/
def copyIfMask (config : LaunchConfig) (element : Element α) (input : Placed α) (mask : Mask)
    (outputAddress : Nat) (store : Store α) : Except Failure Nat × Store α :=
  copyIfMaskOn .willing config element input mask outputAddress store

theorem copyIfMask_def (config : LaunchConfig) (element : Element α) (input : Placed α) (mask : Mask)
    (outputAddress : Nat) (store : Store α) :
    copyIfMask config element input mask outputAddress store =
      if mask.length < input.length then
        (.error (.error (.lengthMismatch input.length mask.length)), store)
      else
        compactFlags (.ofConfig config) config element input
          ((mask.take input.length).view.map fun bit => if bit then 1 else 0) outputAddress store := rfl

/-- A list of a number of values: `blank` itself is the last one, and before it stand its clones. -/
def filled (element : Element α) (blank : α) (length : Nat) (journal : Journal) :
    Except Panic (Array α) × Journal :=
  if length ≤ 1 then (.ok (Array.replicate length blank), journal)
  else
    match element.clone blank with
    | .error panic => (.error panic, journal.countClone)
    | .ok copy =>
      (.ok ((Array.replicate (length - 1) copy).push blank),
        { journal with clones := journal.clones + (length - 1) })

/-- The elements whose bit is set, as a new list, all lanes started.  It is filled with `blank` first, one for each set
bit that belongs to an element. -/
def compactValid (config : LaunchConfig) (element : Element α) (blank : α) (input : Placed α)
    (mask : Mask) (journal : Journal) : Except Failure (Array α) × Journal :=
  let valid := (mask.take input.length).countOnes
  match filled element blank valid journal with
  | (.error panic, journal) => (.error (.panic panic), journal)
  | (.ok dense, journal) =>
    match copyIfMask config element input mask 0 ⟨dense, journal⟩ with
    | (.error failure, store) => (.error failure, store.journal)
    | (.ok written, store) =>
      if written = valid then (.ok store.output, store.journal)
      else (.error (.panic (.lengthsDiffer written valid)), store.journal)

end Compaction

end BlockMachine
