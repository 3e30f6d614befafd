/-!
# Shortest decimals

The decimal of fewest digits that reads back as a given double-precision number, and its text.

* `Decimal.shortest` — of the grids `10 ^ k` the coarsest with a point that rounds to the number; of two
  such points the nearer one, and of two at the same distance the even one.
* `Decimal.render` — positional for `0.00001 ≤ x < 10 ^ 16`, with an exponent otherwise.
-/

set_option autoImplicit false

namespace BlockMachine

/-- The number `digits * 10 ^ exponent`. -/
structure Decimal where
  digits : Nat
  exponent : Int
  deriving DecidableEq, Repr

namespace Decimal

/-- The bits of a double-precision number as `significand * 2 ^ exponent`. -/
structure Dyadic where
  significand : Nat
  exponent : Int
  /-- Whether the next smaller number is only half as far away as the next greater one. -/
  isLowest : Bool
  deriving DecidableEq, Repr

/-- The number of fractions of one power of two. -/
def fractions : Nat := 0x10000000000000

/-- The magnitude of the number with the given bits, which must be finite. -/
def Dyadic.ofBits (bits : Nat) : Dyadic :=
  let fraction : Nat := bits % fractions
  let exponent : Nat := bits / fractions % 0x800
  if exponent = 0 then ⟨fraction, -1074, false⟩
  else ⟨fractions + fraction, (exponent : Int) - 1075, fraction == 0 && 1 < exponent⟩

/-- A number and the interval of the reals that round to it, on the grid of one power of ten: all
divided by `unit`, which stands for one step of the grid. -/
structure Scaled where
  value : Nat
  low : Nat
  high : Nat
  unit : Nat
  /-- Whether the ends of the interval round to the number as well. -/
  closed : Bool

/-- A number on the grid of `10 ^ exponent`. -/
def Dyadic.scaled (number : Dyadic) (exponent : Int) : Scaled :=
  let scale := Nat.pow 2 (number.exponent - 2).toNat * Nat.pow 10 (-exponent).toNat
  ⟨4 * number.significand * scale,
    (4 * number.significand - (if number.isLowest then 1 else 2)) * scale,
    (4 * number.significand + 2) * scale,
    Nat.pow 2 (2 - number.exponent).toNat * Nat.pow 10 exponent.toNat,
    number.significand % 2 == 0⟩

namespace Scaled

/-- Whether a point of the grid rounds to the number. -/
def accepts (scaled : Scaled) (point : Nat) : Bool :=
  let place := point * scaled.unit
  if scaled.closed then decide (scaled.low ≤ place ∧ place ≤ scaled.high)
  else decide (scaled.low < place ∧ place < scaled.high)

/-- The better of the two points beside the number, if one of them rounds to it. -/
def nearest? (scaled : Scaled) : Option Nat :=
  let below := scaled.value / scaled.unit
  let above := below + 1
  let fromBelow := scaled.value - below * scaled.unit
  let fromAbove := above * scaled.unit - scaled.value
  match scaled.accepts below, scaled.accepts above with
  | true, true =>
    if fromBelow < fromAbove ∨ fromBelow = fromAbove ∧ below % 2 = 0 then some below else some above
  | true, false => some below
  | false, true => some above
  | false, false => none

end Scaled

/-- The grids of double-precision numbers, the coarsest first. -/
def grids : List Int := (List.range 634).map fun (index : Nat) => 309 - (index : Int)

/-- The shortest decimal that reads back as a positive number. -/
def shortest (number : Dyadic) : Decimal :=
  (grids.findSome? fun exponent =>
    (number.scaled exponent).nearest?.map fun digits => ⟨digits, exponent⟩).getD ⟨0, 0⟩

/-- The digits of a number in base ten. -/
def digitsOf (number : Nat) : List Char := Nat.toDigits 10 number

/-- A number of zeros. -/
def zeros (count : Nat) : List Char := List.replicate count '0'

/-- The text of an exponent: its sign, which is never left out, and its digits. -/
def exponentText (exponent : Int) : List Char :=
  'e' :: (if exponent < 0 then '-' else '+') :: digitsOf exponent.natAbs

/-- The text of a decimal that is not zero.  `order` is the power of ten of its first digit. -/
def text (decimal : Decimal) : List Char :=
  let digits := digitsOf decimal.digits
  let order := decimal.exponent + digits.length - 1
  if order < -5 ∨ 15 < order then
    match digits with
    | [digit] => digit :: exponentText order
    | digits => digits.take 1 ++ '.' :: digits.drop 1 ++ exponentText order
  else if order < 0 then '0' :: '.' :: zeros (-order - 1).toNat ++ digits
  else if 0 ≤ decimal.exponent then digits ++ zeros decimal.exponent.toNat ++ ['.', '0']
  else digits.take (order + 1).toNat ++ '.' :: digits.drop (order + 1).toNat

/-- The bit of the sign. -/
def signBit : Nat := 0x8000000000000000

/-- The text of the finite double-precision number with the given bits. -/
def render (bits : UInt64) : String :=
  let number := Dyadic.ofBits (bits.toNat % signBit)
  let body := if number.significand = 0 then ['0', '.', '0'] else (shortest number).text
  String.ofList (if signBit ≤ bits.toNat then '-' :: body else body)

end Decimal

end BlockMachine
