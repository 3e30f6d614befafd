import BlockMachine.Journal
import BlockMachine.Memory.Element

/-!
# Programs of a lane

What one lane of a block does is data: a tree that asks the machine for one thing at a time, meets
the other lanes at barriers, and comes to an end or a fault.  The same tree can be run alone, beside
the other lanes in any order, or only looked at.

* `Request` — what a lane can ask for; each request touches memory or the caller's code once.
* `Lane` — a program; `Lane` is a monad, whose `bind` puts one program after another.
* `LaneContext` — where a lane stands in the grid, and which items of a list are its share.
-/

set_option autoImplicit false

namespace BlockMachine

/-- What a lane can ask the machine for.  The slots hold values of `σ` and belong to the block; the
destination holds elements of `α` and is common to all blocks. -/
inductive Request (σ α : Type) where
  /-- The value of a slot. -/
  | load (slot : Nat)
  | store (slot : Nat) (value : σ)
  /-- The caller's operator applied to two values. -/
  | combine (left right : σ)
  /-- An item of the caller's view. -/
  | fetch (index : Nat)
  | clone (value : α)
  /-- One element of the destination. -/
  | write (index : Nat) (value : α)
  /-- Bytes of the destination, from a position counted in bytes. -/
  | writeBytes (position : Nat) (bytes : List UInt8)
  | note (record : Record)

/-- The type of the answer to a request. -/
@[reducible] def Request.Answer {σ α : Type} : Request σ α → Type
  | load _ => σ
  | store _ _ => Unit
  | combine _ _ => σ
  | fetch _ => σ
  | clone _ => α
  | write _ _ => Unit
  | writeBytes _ _ => Unit
  | note _ => Unit

/-- A program of one lane, which ends with a result of type `β`. -/
inductive Lane (σ α β : Type) : Type where
  | done (result : β)
  | fault (panic : Panic)
  /-- The lane waits for the other lanes of its block. -/
  | barrier (next : Lane σ α β)
  | ask (request : Request σ α) (next : request.Answer → Lane σ α β)

namespace Lane

variable {σ α β γ : Type}

/-- One program, and then another that depends on its result. -/
protected def bind : Lane σ α β → (β → Lane σ α γ) → Lane σ α γ
  | done result, rest => rest result
  | fault panic, _ => fault panic
  | barrier next, rest => barrier (next.bind rest)
  | ask request next, rest => ask request fun answer => (next answer).bind rest

instance : Monad (Lane σ α) where
  pure := done
  bind := Lane.bind

@[simp] theorem pure_eq (result : β) : (pure result : Lane σ α β) = done result := rfl

@[simp] theorem done_bind (result : β) (rest : β → Lane σ α γ) :
    (done result >>= rest) = rest result := rfl

@[simp] theorem fault_bind (panic : Panic) (rest : β → Lane σ α γ) :
    (fault panic >>= rest) = fault panic := rfl

@[simp] theorem barrier_bind (next : Lane σ α β) (rest : β → Lane σ α γ) :
    (barrier next >>= rest) = barrier (next >>= rest) := rfl

@[simp] theorem ask_bind (request : Request σ α) (next : request.Answer → Lane σ α β)
    (rest : β → Lane σ α γ) :
    (ask request next >>= rest) = ask request fun answer => next answer >>= rest := rfl

theorem bind_done (program : Lane σ α β) : program.bind done = program := by
  induction program with
  | done _ => rfl
  | fault _ => rfl
  | barrier _ ih => exact congrArg barrier ih
  | ask request _ ih => exact congrArg (ask request) (funext ih)

theorem bind_bind {δ : Type} (program : Lane σ α β) (f : β → Lane σ α γ) (g : γ → Lane σ α δ) :
    (program.bind f).bind g = program.bind fun result => (f result).bind g := by
  induction program with
  | done _ => rfl
  | fault _ => rfl
  | barrier _ ih => exact congrArg barrier ih
  | ask request _ ih => exact congrArg (ask request) (funext ih)

/-- The value of a computation that may panic; a panic is a fault of the lane. -/
def ofExcept : Except Panic β → Lane σ α β
  | .ok value => done value
  | .error panic => fault panic

/-- Waits for the other lanes of the block. -/
def sync : Lane σ α Unit := barrier (done ())

/-- Reads a slot. -/
def load (slot : Nat) : Lane σ α σ := ask (.load slot) done

/-- Writes a slot. -/
def store (slot : Nat) (value : σ) : Lane σ α Unit := ask (.store slot value) done

/-- Applies the caller's operator. -/
def combine (left right : σ) : Lane σ α σ := ask (.combine left right) done

/-- Asks the caller's view for an item. -/
def fetch (index : Nat) : Lane σ α σ := ask (.fetch index) done

/-- Clones a value. -/
def clone (value : α) : Lane σ α α := ask (.clone value) done

/-- Logs a record. -/
def note (record : Record) : Lane σ α Unit := ask (.note record) done

/-- The same work for each member of a list, in order. -/
def forEach {ι : Type} : List ι → (ι → Lane σ α Unit) → Lane σ α Unit
  | [], _ => done ()
  | item :: rest, work => do
    work item
    forEach rest work

end Lane

/-- Where a lane stands in the grid of a launch. -/
structure LaneContext where
  lane : Nat
  block : Nat
  blockSize : Nat
  gridSize : Nat
  /-- Whether copies in wide words are reliable; they are unless the machine says otherwise. -/
  wideCopy : Bool := true
  deriving DecidableEq, Repr

namespace LaneContext

/-- The context of a block of one lane that runs without a launch. -/
def single (wideCopy : Bool := true) : LaneContext := ⟨0, 0, 1, 1, wideCopy⟩

/-- The items of a lane when the lanes of its block share the items `0, …, count - 1`: lane `t` of `T`
takes `t, t + T, t + 2T, …`. -/
def share (context : LaneContext) (count : Nat) : List Nat :=
  let turns := (count - context.lane + (context.blockSize - 1)) / context.blockSize
  (List.range turns).map fun turn => context.lane + turn * context.blockSize

end LaneContext

end BlockMachine
