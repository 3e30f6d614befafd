import BlockMachine.Panic

/-!
# Predicates

What decides whether an element is kept.

* `Selector` — a predicate in general: its answer may depend on the number of the element and on how
  often it was asked before, and it may panic.
* `Selector.ofValue` — a total predicate that looks at the value alone.
* `Predicate` — a small language of predicates on integer keys, with those that count their calls
  or panic on some.
-/

set_option autoImplicit false

namespace BlockMachine

/-- A predicate on elements of a stencil. -/
abbrev Selector (S : Type) : Type := (index earlier : Nat) → S → Except Panic Bool

namespace Selector

variable {S : Type}

/-- A predicate that is a function of the value. -/
def ofValue (keeps : S → Bool) : Selector S := fun _ _ value => .ok (keeps value)

/-- A predicate that is a function of the value and may panic. -/
def ofPartial (keeps : S → Except Panic Bool) : Selector S := fun _ _ value => keeps value

/-- The opposite answer. -/
def negate (selector : Selector S) : Selector S := fun index earlier value =>
  return !(← selector index earlier value)

end Selector

/-- Predicates on integer keys. -/
inductive Predicate where
  | all
  | none
  | even
  | lessThan (bound : Int)
  | atLeast (bound : Int)
  | equals (key : Int)
  /-- The remainder that is not negative. -/
  | residue (modulus remainder : Int)
  | oneOf (keys : List Int)
  | not (predicate : Predicate)
  /-- Panics on one key. -/
  | panicOn (key : Int) (predicate : Predicate)
  /-- Panics on one call, counted from 1, for one element. -/
  | panicAt (element call : Nat) (predicate : Predicate)
  /-- One answer on the first call for an element, another one later. -/
  | firstThen (first later : Predicate)

namespace Predicate

/-- The smallest key. -/
def leastKey : Int := -0x80000000000000000000000000000000

/-- The remainder that is not negative.  There is none by zero, and none if the quotient is no key. -/
def euclidean (key modulus : Int) : Except Panic Int :=
  if modulus = 0 then .error .remainderByZero
  else if modulus = -1 ∧ key = leastKey then .error (.overflow .remainder)
  else .ok (key % modulus)

/-- The answer for an element with a key. -/
def holds : Predicate → (index earlier : Nat) → Int → Except Panic Bool
  | all, _, _, _ => .ok true
  | none, _, _, _ => .ok false
  | even, _, _, key => .ok (key % 2 == 0)
  | lessThan bound, _, _, key => .ok (decide (key < bound))
  | atLeast bound, _, _, key => .ok (decide (bound ≤ key))
  | equals other, _, _, key => .ok (key == other)
  | residue modulus remainder, _, _, key => return (← euclidean key modulus) == remainder
  | oneOf keys, _, _, key => .ok (keys.contains key)
  | not predicate, index, earlier, key => return !(← predicate.holds index earlier key)
  | panicOn bad predicate, index, earlier, key =>
    if key = bad then .error (.raised (.composed s!"bad element {key}"))
    else predicate.holds index earlier key
  | panicAt element call predicate, index, earlier, key =>
    if index = element ∧ earlier + 1 = call then
      .error (.raised (.composed s!"call {call} on element {element}"))
    else predicate.holds index earlier key
  | firstThen first later, index, earlier, key =>
    if earlier = 0 then first.holds index earlier key else later.holds index earlier key

/-- A predicate on the keys of values. -/
def selector {S : Type} (predicate : Predicate) (key : S → Int) : Selector S :=
  fun index earlier value => predicate.holds index earlier (key value)

end Predicate

end BlockMachine
