import BlockMachine.Barrier.Drill

/-!
# Runs at a barrier, and the ledger of their waits

Any interleaving of the callers of a barrier is a list of turns.  What the callers are seen to do in it is
kept in a ledger, which knows nothing of how the barrier works.

* `BarrierRoom.Turn`, `BarrierRoom.run` — what can happen next in a room, and a room after some turns.
* `BarrierRoom.log` — the arrivals, the poisonings and the returns of a run, in their order.
* `Ledger` — the waits of a log in the order of their arrival, each with its answer.
-/

set_option autoImplicit false

namespace BlockMachine

/-- What a caller is seen to do at a barrier. -/
inductive CallerDeed where
  /-- Arrives for a wait. -/
  | arrives
  | poisons
  /-- Has the answer of a wait. -/
  | returns (result : WaitResult)
  deriving DecidableEq, Repr

/-- What a caller has done between two looks at it. -/
def Caller.deeds (before after : Caller) : List CallerDeed :=
  (if before.phase = .arriving ∧ after.phase ≠ .arriving then [.arrives] else []) ++
    (if before.phase = .poisoning ∧ after.phase ≠ .poisoning then [.poisons] else []) ++
    (after.results.take (after.results.length - before.results.length)).map .returns

namespace BarrierRoom

/-- What can happen next in a room. -/
inductive Turn where
  /-- An idle caller begins to wait. -/
  | waits (caller : Nat)
  /-- An idle caller begins to poison the barrier. -/
  | poisons (caller : Nat)
  /-- A caller takes its next atomic step. -/
  | steps (caller : Nat)
  /-- A parked caller wakes up although nobody asked for it. -/
  | wakes (caller : Nat)
  deriving DecidableEq, Repr

/-- The caller whose turn it is. -/
def Turn.caller : Turn → Nat
  | waits caller | poisons caller | steps caller | wakes caller => caller

/-- The room after a turn. -/
def turn (room : BarrierRoom) : Turn → BarrierRoom
  | .waits caller => room.call caller .arriving
  | .poisons caller => room.call caller .poisoning
  | .steps caller => room.step caller
  | .wakes caller => room.wake caller

/-- The room after some turns. -/
def run (room : BarrierRoom) (turns : List Turn) : BarrierRoom := turns.foldl turn room

/-- What the caller is seen to do whose turn it is. -/
def deeds (room : BarrierRoom) (turn : Turn) : List CallerDeed :=
  match room.callers[turn.caller]?, (room.turn turn).callers[turn.caller]? with
  | some before, some after => before.deeds after
  | _, _ => []

/-- What the callers are seen to do in some turns, each deed with its caller. -/
def log : BarrierRoom → List Turn → List (Nat × CallerDeed)
  | _, [] => []
  | room, turn :: rest =>
    (room.deeds turn).map (fun deed => (turn.caller, deed)) ++ log (room.turn turn) rest

end BarrierRoom

/-- A wait at a barrier: who waits, and the answer once there is one. -/
structure LedgerEntry where
  caller : Nat
  answer : Option WaitResult := none
  deriving DecidableEq, Repr

/-- The wait once its caller has returned with an answer. -/
def LedgerEntry.settled (caller : Nat) (result : WaitResult) (entry : LedgerEntry) : LedgerEntry :=
  if entry.caller = caller ∧ entry.answer = none then { entry with answer := some result } else entry

/-- The waits at a barrier. -/
structure Ledger where
  /-- The waits that arrived before the barrier was poisoned, in the order of their arrival. -/
  counted : List LedgerEntry := []
  /-- The waits that arrived later. -/
  late : List LedgerEntry := []
  /-- Whether the barrier has been poisoned. -/
  closed : Bool := false
  deriving DecidableEq, Repr

namespace Ledger

/-- Enters what a caller is seen to do. -/
def enter (ledger : Ledger) : Nat × CallerDeed → Ledger
  | (caller, .arrives) =>
    if ledger.closed then { ledger with late := ledger.late ++ [⟨caller, none⟩] }
    else { ledger with counted := ledger.counted ++ [⟨caller, none⟩] }
  | (_, .poisons) => { ledger with closed := true }
  | (caller, .returns result) =>
    { ledger with
      counted := ledger.counted.map (LedgerEntry.settled caller result)
      late := ledger.late.map (LedgerEntry.settled caller result) }

/-- The ledger of a log. -/
def ofLog (log : List (Nat × CallerDeed)) : Ledger := log.foldl enter {}

/-- The ledger of a run of some callers at a new barrier. -/
def ofTurns (threads callers : Nat) (turns : List BarrierRoom.Turn) : Ledger :=
  ofLog ((Drill.gather { threads := threads } callers).log turns)

/-- Whether a counted wait of a caller has no answer yet.  Waits are numbered in the order of their
arrival. -/
def Pending (ledger : Ledger) (caller wait : Nat) : Prop :=
  ledger.counted[wait]? = some ⟨caller, none⟩

/-- Whether a counted wait has been answered so. -/
def Answered (ledger : Ledger) (wait : Nat) (result : WaitResult) : Prop :=
  ∃ caller, ledger.counted[wait]? = some ⟨caller, some result⟩

end Ledger

end BlockMachine
