import BlockMachine.Panic

/-!
# Machine words

Lengths, positions and addresses are natural numbers below `Word.limit`.  Sums, differences and
products are checked: a result outside the word is a panic and never wraps.

* `Word.add`, `Word.sub`, `Word.mul` — checked arithmetic, exact whenever the result fits.
* `Word.aligned` — whether an address is a multiple of a power of two.
* `IntegerRange.divide` — quotient toward zero and remainder, by one division.
-/

set_option autoImplicit false

namespace BlockMachine

namespace Word

/-- The number of values of a 64-bit word. -/
def limit : Nat := UInt64.size

/-- The number of bytes that one allocation may not reach. -/
def allocationLimit : Nat := limit / 2

/-- The sum, if it is a word. -/
def add (a b : Nat) : Except Panic Nat :=
  if a + b < limit then .ok (a + b) else .error (.overflow .add)

/-- The difference, if it is not negative. -/
def sub (a b : Nat) : Except Panic Nat :=
  if b ≤ a then .ok (a - b) else .error (.overflow .subtract)

/-- The product, if it is a word. -/
def mul (a b : Nat) : Except Panic Nat :=
  if a * b < limit then .ok (a * b) else .error (.overflow .multiply)

theorem add_eq_ok {a b : Nat} (h : a + b < limit) : add a b = .ok (a + b) := if_pos h

theorem sub_eq_ok {a b : Nat} (h : b ≤ a) : sub a b = .ok (a - b) := if_pos h

theorem mul_eq_ok {a b : Nat} (h : a * b < limit) : mul a b = .ok (a * b) := if_pos h

theorem eq_of_add {a b c : Nat} (h : add a b = .ok c) : c = a + b := by
  by_cases hlt : a + b < limit
  · exact (Except.ok.inj ((add_eq_ok hlt).symm.trans h)).symm
  · cases (if_neg hlt : add a b = _).symm.trans h

theorem eq_of_mul {a b c : Nat} (h : mul a b = .ok c) : c = a * b := by
  by_cases hlt : a * b < limit
  · exact (Except.ok.inj ((mul_eq_ok hlt).symm.trans h)).symm
  · cases (if_neg hlt : mul a b = _).symm.trans h

/-- Whether a number is a power of two: it is not zero and shares no bit with its predecessor. -/
def isPowerOfTwo (n : Nat) : Bool :=
  n != 0 && n &&& (n - 1) == 0

/-- Whether an address lies on a boundary of `alignment` bytes, which must be a power of two. -/
def aligned (address alignment : Nat) : Except Panic Bool :=
  if isPowerOfTwo alignment then .ok (address % alignment == 0)
  else .error .alignmentNotPowerOfTwo

end Word

/-- The values of a fixed-width integer type: all integers from `low` to `high`. -/
structure IntegerRange where
  low : Int
  high : Int
  deriving DecidableEq, Repr

namespace IntegerRange

/-- The first `count` integers from zero on. -/
def unsigned (count : Nat) : IntegerRange := ⟨0, count - 1⟩

/-- `count` integers in two's complement: half of them are below zero. -/
def signed (count : Nat) : IntegerRange := ⟨-(count / 2 : Nat), (count / 2 : Nat) - 1⟩

/-- A result that must lie in the range. -/
def checked (range : IntegerRange) (operation : Arithmetic) (result : Int) : Except Panic Int :=
  if range.low ≤ result ∧ result ≤ range.high then .ok result else .error (.overflow operation)

/-- The quotient toward zero, and what is left of `n` after subtracting that many times `d`. -/
def divide (range : IntegerRange) (n d : Int) : Except Panic (Int × Int) := do
  if d = 0 then throw .divisionByZero
  let quotient ← range.checked .divide (n.tdiv d)
  let product ← range.checked .multiply (d * quotient)
  let remainder ← range.checked .subtract (n - product)
  return (quotient, remainder)

end IntegerRange

end BlockMachine
