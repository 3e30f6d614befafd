import BlockMachine.Document.Reader
import BlockMachine.Word

/-!
# Numbers in a document

A number is a natural number of a word, a negative one of a signed word, or else a double-precision
number.  For the latter, digits are taken into a significand as long as it stays a word, further digits
only count as powers of ten, and the significand is scaled by the power that results.

* `Numeral.absorb` — the digits that make up a significand, and those left over.
* `Numeral.scaled?` — a significand scaled by a power of ten, unless that is too large.
* `Reader.number` — a number; `Reader.skipNumber` — the same without its value.
-/

set_option autoImplicit false

namespace BlockMachine

/-- A number as it is read. -/
inductive Numeral where
  | natural (value : Nat)
  /-- The number below zero of the given magnitude. -/
  | negative (magnitude : Nat)
  /-- A number in double precision, by its bits. -/
  | floating (bits : UInt64)
  deriving DecidableEq, Repr

namespace Numeral

/-- What a number is called in a message. -/
def found : Numeral → Found
  | natural value => .integer value
  | negative magnitude => .integer (-magnitude)
  | floating bits => .floating bits

/-- Takes digits into a significand as long as it stays a word.  The result is the significand, and the
digits that are left over. -/
def absorb (significand : Nat) : List Nat → Nat × List Nat
  | [] => (significand, [])
  | digit :: rest =>
    if 10 * significand + digit < Word.limit then absorb (10 * significand + digit) rest
    else (significand, digit :: rest)

/-- The number that some digits write. -/
def ofDigits (digits : List Nat) : Nat := digits.foldl (fun value digit => 10 * value + digit) 0

/-- A power of ten in double precision. -/
def power (exponent : Nat) : Float := Float.ofScientific 1 false exponent

/-- The largest power of ten that is finite. -/
def maxPower : Nat := 308

/-- Divides by a power of ten, by at most `maxPower` at a time. -/
def divide (value : Float) (exponent : Nat) : Float :=
  if exponent ≤ maxPower then value / power exponent
  else if value == 0 then value
  else divide (value / power maxPower) (exponent - maxPower)
termination_by exponent
decreasing_by simp only [maxPower] at *; omega

/-- A significand scaled by a power of ten, if that is finite. -/
def scaled? (significand : Nat) (exponent : Int) : Option Float :=
  let value := (UInt64.ofNat significand).toFloat
  if exponent < 0 then some (divide value exponent.natAbs)
  else if exponent ≤ maxPower then
    let product := value * power exponent.natAbs
    if product.isInf then none else some product
  else if significand = 0 then some value
  else none

/-- A double-precision number with its sign. -/
def ofFloat (isNegative : Bool) (value : Float) : Numeral :=
  floating (if isNegative then -value else value).toBits

/-- A number without fraction and exponent whose digits make up a significand of a word. -/
def ofInteger (isNegative : Bool) (value : Nat) : Numeral :=
  if !isNegative then natural value
  else if 0 < value ∧ value ≤ Word.limit / 2 then negative value
  else ofFloat true (UInt64.ofNat value).toFloat

/-- The largest exponent that is written out. -/
def maxExponent : Nat := 0x7FFFFFFF

/-- The number of digits with which an exponent becomes larger than `maxExponent`, if it does.  `value`
and `count` tell of the digits before. -/
def overflowAt? (value count : Nat) : List Nat → Option Nat
  | [] => none
  | digit :: rest =>
    if maxExponent < 10 * value + digit then some (count + 1)
    else overflowAt? (10 * value + digit) (count + 1) rest

end Numeral

namespace Reader

/-- A significand scaled by a power of ten. -/
def scaled (isNegative : Bool) (significand : Nat) (exponent : Int) : Reader Numeral :=
  match Numeral.scaled? significand exponent with
  | some value => return .ofFloat isNegative value
  | none => fail .numberTooLarge

/-- The exponent of a number, whose mark is next. -/
def exponent (isNegative : Bool) (significand : Nat) (shift : Int) : Reader Numeral := do
  take
  let sign ← peek
  if sign = some '+' ∨ sign = some '-' then take
  match ← peek with
  | none => fail .endInValue
  | some c => if !c.isDigit then failNext .invalidNumber
  let start ← get
  let digits ← digits
  match Numeral.overflowAt? 0 0 digits with
  | none =>
    let value : Int := Numeral.ofDigits digits
    scaled isNegative significand (if sign = some '-' then shift - value else shift + value)
  | some count =>
    if significand ≠ 0 ∧ sign ≠ some '-' then
      set (start.pass count)
      fail .numberTooLarge
    else return .ofFloat isNegative 0

/-- The fraction of a number, whose point is next. -/
def fraction (isNegative : Bool) (significand : Nat) (shift : Int) : Reader Numeral := do
  take
  let digits ← digits
  if digits.isEmpty then
    failNext (if (← peek).isSome then .invalidNumber else .endInValue)
  let (significand, left) := Numeral.absorb significand digits
  let shift := shift - (digits.length - left.length : Nat)
  match ← peek with
  | some 'e' | some 'E' => exponent isNegative significand shift
  | _ => scaled isNegative significand shift

/-- The digits of a number in front of its point: a zero alone, or others. -/
def wholeDigits : Reader (List Nat) := do
  match ← peek with
  | some '0' =>
    take
    if (← peek).any Char.isDigit then failNext .invalidNumber
    return [0]
  | some c => if c.isDigit then digits else failNext .invalidNumber
  | none => fail .endInValue

/-- A number, whose sign has been passed. -/
def magnitude (isNegative : Bool) : Reader Numeral := do
  let (significand, left) := Numeral.absorb 0 (← wholeDigits)
  match ← peek with
  | some '.' => fraction isNegative significand left.length
  | some 'e' | some 'E' => exponent isNegative significand left.length
  | _ =>
    if left.isEmpty then return .ofInteger isNegative significand
    else scaled isNegative significand left.length

/-- Whether a number begins with a character. -/
def startsNumber (c : Char) : Bool := c == '-' || c.isDigit

/-- A number. -/
def number : Reader Numeral := do
  if (← peek) = some '-' then
    take
    magnitude true
  else magnitude false

/-- Passes the digits of which at least one must be next. -/
def skipDigits : Reader Unit := do
  if (← peek).any Char.isDigit then
    let _ ← digits
  else failNext .invalidNumber

/-- Passes the exponent of a number, if there is one. -/
def skipExponent : Reader Unit := do
  let mark ← peek
  if mark = some 'e' ∨ mark = some 'E' then
    take
    let sign ← peek
    if sign = some '+' ∨ sign = some '-' then take
    skipDigits

/-- Passes a number. -/
def skipNumber : Reader Unit := do
  if (← peek) = some '-' then take
  if (← peek) = some '0' then
    take
    if (← peek).any Char.isDigit then failNext .invalidNumber
  else skipDigits
  if (← peek) = some '.' then
    take
    skipDigits
  skipExponent

end Reader

end BlockMachine
