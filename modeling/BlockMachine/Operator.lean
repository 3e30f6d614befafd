import BlockMachine.Panic

/-!
# Combining operators

The operators that scans and reductions are run with, over the number types of the library.  An
operator need not be associative; the results show in which order it was applied.

* `Operator` — the names of the operators.
* `NumberType` — a type with the operators that it has.
-/

set_option autoImplicit false

namespace BlockMachine

/-- The names of the operators. -/
inductive Operator where
  | add | sub | mul | min | max | xor
  /-- The left argument. -/
  | left
  /-- The right argument. -/
  | right
  /-- The sum, with a panic if it does not fit. -/
  | checkedAdd
  /-- The composition of two affine maps. -/
  | compose
  /-- Both texts in brackets. -/
  | paren
  deriving DecidableEq, Repr

namespace Operator

/-- All operators. -/
def all : List Operator :=
  [add, sub, mul, min, max, xor, left, right, checkedAdd, compose, paren]

/-- The word for an operator. -/
def name : Operator → String
  | add => "add"
  | sub => "sub"
  | mul => "mul"
  | min => "min"
  | max => "max"
  | xor => "xor"
  | left => "left"
  | right => "right"
  | checkedAdd => "checked_add"
  | compose => "compose"
  | paren => "paren"

/-- The operator that a word names. -/
def ofName? (text : String) : Option Operator :=
  all.find? fun op => op.name == text

end Operator

/-- A type of values that can be combined. -/
structure NumberType (α : Type) where
  /-- The value with which memory is filled. -/
  blank : α
  /-- The operator of a name, if the type has it. -/
  operator : Operator → Option (α → α → Except Panic α)

namespace NumberType

/-- The operator of a name; where the type has none of that name, the left argument. -/
def apply {α : Type} (numbers : NumberType α) (name : Operator) : α → α → Except Panic α :=
  (numbers.operator name).getD fun left _ => .ok left

/-- An operator that never panics. -/
def total {α : Type} (f : α → α → α) : Option (α → α → Except Panic α) :=
  some fun a b => .ok (f a b)

/-- A sum that panics with its own text if it does not fit. -/
def checked {α : Type} (fits : α → α → Bool) (f : α → α → α) :
    Option (α → α → Except Panic α) :=
  some fun a b => if fits a b then .ok (f a b) else .error (.raised (.literal "sum overflow"))

/-- Signed 64-bit integers; sums and products wrap. -/
def int64 : NumberType Int64 where
  blank := 0
  operator
    | .add => total (· + ·)
    | .sub => total (· - ·)
    | .mul => total (· * ·)
    | .min => total min
    | .max => total max
    | .xor => total (· ^^^ ·)
    | .left => total fun a _ => a
    | .right => total fun _ b => b
    | .checkedAdd => checked (fun a b => (a + b).toInt == a.toInt + b.toInt) (· + ·)
    | .compose | .paren => none

/-- Bytes; sums and products wrap. -/
def uint8 : NumberType UInt8 where
  blank := 0
  operator
    | .add => total (· + ·)
    | .sub => total (· - ·)
    | .mul => total (· * ·)
    | .min => total min
    | .max => total max
    | .xor => total (· ^^^ ·)
    | .left => total fun a _ => a
    | .right => total fun _ b => b
    | .checkedAdd => checked (fun a b => (a + b).toNat == a.toNat + b.toNat) (· + ·)
    | .compose | .paren => none

/-- Unsigned 64-bit integers; sums and products wrap. -/
def uint64 : NumberType UInt64 where
  blank := 0
  operator
    | .add => total (· + ·)
    | .sub => total (· - ·)
    | .mul => total (· * ·)
    | .min => total min
    | .max => total max
    | .xor => total (· ^^^ ·)
    | .left => total fun a _ => a
    | .right => total fun _ b => b
    | .checkedAdd => checked (fun a b => (a + b).toNat == a.toNat + b.toNat) (· + ·)
    | .compose | .paren => none

/-- Double-precision numbers. -/
def float : NumberType Float where
  blank := 0
  operator
    | .add => total (· + ·)
    | .sub => total (· - ·)
    | .mul => total (· * ·)
    | _ => none

end NumberType

/-- The map `x ↦ scale * x + shift` on 64-bit integers. -/
structure Affine where
  scale : Int64
  shift : Int64
  deriving DecidableEq, Repr

/-- The right map, and after it the left one with its terms exchanged: not commutative. -/
def Affine.compose (left right : Affine) : Affine :=
  ⟨left.scale * right.scale, left.shift * right.scale + right.shift⟩

/-- Affine maps. -/
def NumberType.affine : NumberType Affine where
  blank := ⟨0, 0⟩
  operator
    | .compose => total Affine.compose
    | _ => none

/-- Texts that show how they were put together. -/
def NumberType.expression : NumberType String where
  blank := "_"
  operator
    | .paren => total fun left right => s!"({left} {right})"
    | _ => none

end BlockMachine
