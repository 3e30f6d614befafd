import BlockMachine.Launch
import BlockMachine.Memory.Slots

/-!
# Scans within a block

The lanes of a block scan its slots together.  In the round of distance `d` every lane whose number is
at least `d` combines its slot with the one `d` places before it; the distances are the powers of two
below the number of slots.  The operator is always applied to the earlier slot first, so it need not
be commutative, and no number of lanes is special.

* `BlockScan.distances` — the distances of the rounds.
* `BlockScan.round` — one round of one lane: read, barrier, write, barrier.
* `BlockScan.scanFirst`, `BlockScan.scan` — the scan of the first slots, and of one slot for each lane.
* `BlockScan.kernel` — a launch that scans one list.
-/

set_option autoImplicit false

namespace BlockMachine

namespace BlockScan

variable {σ α : Type}

/-- The number of powers of two below `n`. -/
def roundCount (n : Nat) : Nat := if n ≤ 1 then 0 else Nat.log2 (n - 1) + 1

/-- The powers of two below `n`, the smallest first.  Each is twice the one before it, which stays within a word for
up to `2^63` slots; a block has no more than `maxThreadsPerBlock`. -/
def distances (n : Nat) : List Nat := (List.range (roundCount n)).map (Nat.pow 2)

/-- One round of a lane.  Lanes outside the round still take both barriers. -/
def round (lane n distance : Nat) : Lane σ α Unit :=
  if distance ≤ lane ∧ lane < n then do
    let left ← Lane.load (lane - distance)
    let right ← Lane.load lane
    let sum ← Lane.combine left right
    Lane.sync
    Lane.store lane sum
    Lane.sync
  else do
    Lane.sync
    Lane.sync

/-- The scan of the first `n` of `slots` slots by all lanes of a block. -/
def scanFirst (context : LaneContext) (slots n : Nat) : Lane σ α Unit :=
  if n ≤ slots ∧ n ≤ context.blockSize then
    Lane.forEach (distances n) (round context.lane n)
  else .fault .scanWiderThanBlock

/-- The scan of one slot for each lane. -/
def scan (context : LaneContext) (slots : Nat) : Lane σ α Unit :=
  scanFirst context slots context.blockSize

/-- The program of a lane that scans a list: the lanes lay the list out in the slots, scan it, and
write the slots to the destination. -/
def program (input : Array σ) (count : Option Nat) (context : LaneContext) : Lane σ σ Unit := do
  let mine := context.share input.size
  Lane.forEach mine fun index =>
    match input[index]? with
    | some value => Lane.store index value
    | none => .fault (.indexOutOfBounds input.size index)
  Lane.sync
  scanFirst context input.size (count.getD context.blockSize)
  Lane.forEach mine fun index => do
    let value ← Lane.load index
    .ask (.write index value) .done

/-- A launch of one block that scans the first `count` entries of a list, by default one for each
lane. -/
def kernel (op : σ → σ → Except Panic σ) (blank : σ) (input : Array σ) (count : Option Nat) :
    Kernel σ σ where
  slots _ := .ok (Slots.blank input.size blank)
  program := program input count
  callbacks := ⟨fun index _ => .error (.indexOutOfBounds 0 index), op, Element.cloned 0⟩

end BlockScan

end BlockMachine
