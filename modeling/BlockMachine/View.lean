import BlockMachine.Word
import BlockMachine.Predicate

/-!
# Views

Kernels read their input through views: sequences whose items are worked out when a lane asks for
them.

* `View.ofArray` — the elements of an array.
* `View.map` — a function of the items of another view.
* `View.select` — a predicate on the items, as one of two numbers.
-/

set_option autoImplicit false

namespace BlockMachine

/-- A sequence whose items are worked out on demand. -/
structure View (β : Type) where
  length : Nat
  /-- The item at an index, given how often it was asked for before. -/
  item : (index earlier : Nat) → Except Panic β

namespace View

variable {α β : Type}

/-- Whether there is no item. -/
def isEmpty (view : View β) : Bool := view.length == 0

/-- The elements of an array. -/
def ofArray (values : Array α) : View α where
  length := values.size
  item index _ :=
    match values[index]? with
    | some value => .ok value
    | none => .error (.indexOutOfBounds values.size index)

/-- A function of the items. -/
def map (f : α → β) (view : View α) : View β where
  length := view.length
  item index earlier := do return f (← view.item index earlier)

/-- A predicate on the items, as `yes` where it holds and `no` elsewhere. -/
def select (selector : Selector α) (yes no : β) (view : View α) : View β where
  length := view.length
  item index earlier := do
    let value ← view.item index earlier
    return if ← selector index earlier value then yes else no

/-- A predicate on the items, as 1 and 0. -/
def flags (selector : Selector α) (view : View α) : View Nat := view.select selector 1 0

end View

end BlockMachine
