import BlockMachine.Memory.Element
import BlockMachine.Memory.LittleEndian
import BlockMachine.Word

/-!
# Scalar types

The scalar types of the library are strings of bytes: integers in little-endian two's complement,
floating-point numbers as the bytes of their bit pattern, characters as their code point.

* `Scalar.encode`, `Scalar.decode` — the bytes of an integer, and the integer of some bytes.
* `Binary.truncate` — the integer part of a floating-point number, cut off at the ends of 64 bits.
* `Scalar.key` — the integer that predicates see.
* `ElementKind` — scalars, arrays of scalars and the types that have to be cloned.
-/

set_option autoImplicit false

namespace BlockMachine

/-- A binary floating-point format. -/
structure Binary where
  exponentBits : Nat
  fractionBits : Nat

namespace Binary

/-- Single precision. -/
def single : Binary := ⟨8, 23⟩

/-- Double precision. -/
def double : Binary := ⟨11, 52⟩

/-- The integer nearest to `number` in the range of 64-bit integers. -/
def clamp (number : Int) : Int :=
  max Int64.minValue.toInt (min Int64.maxValue.toInt number)

/-- The number with a bit pattern, truncated toward zero and cut off at the ends of the 64-bit
integers; 0 for a pattern that is no number. -/
def truncate (format : Binary) (bits : Nat) : Int :=
  let fractions := 1 <<< format.fractionBits
  let exponents := 1 <<< format.exponentBits
  let fraction := bits % fractions
  let exponent := bits / fractions % exponents
  let negative := bits / (fractions * exponents) % 2 = 1
  let bias := exponents / 2 - 1
  let magnitude : Nat :=
    if exponent = exponents - 1 then if fraction = 0 then Word.limit else 0
    else if exponent < bias then 0
    else if bias + 64 ≤ exponent then Word.limit
    else ((fractions + fraction) <<< (exponent - bias)) / fractions
  clamp (if negative then -magnitude else magnitude)

end Binary

/-- The scalar types. -/
inductive Scalar where
  | u8 | u16 | u32 | u64 | usize | u128
  | i8 | i16 | i32 | i64 | isize | i128
  | f32 | f64 | bool | char
  deriving DecidableEq, Repr

namespace Scalar

/-- All scalar types. -/
def all : List Scalar :=
  [u8, u16, u32, u64, usize, u128, i8, i16, i32, i64, isize, i128, f32, f64, bool, char]

/-- The word for a scalar type. -/
def name : Scalar → String
  | u8 => "u8"
  | u16 => "u16"
  | u32 => "u32"
  | u64 => "u64"
  | usize => "usize"
  | u128 => "u128"
  | i8 => "i8"
  | i16 => "i16"
  | i32 => "i32"
  | i64 => "i64"
  | isize => "isize"
  | i128 => "i128"
  | f32 => "f32"
  | f64 => "f64"
  | bool => "bool"
  | char => "char"

/-- The scalar type that a word names. -/
def ofName? (text : String) : Option Scalar :=
  all.find? fun scalar => scalar.name == text

/-- The bytes of a value. -/
def size : Scalar → Nat
  | u8 | i8 | bool => 1
  | u16 | i16 => 2
  | u32 | i32 | f32 | char => 4
  | u64 | usize | i64 | isize | f64 => 8
  | u128 | i128 => 16

/-- Whether the bytes are those of a signed integer. -/
def isSigned : Scalar → Bool
  | i8 | i16 | i32 | i64 | isize | i128 => true
  | _ => false

/-- The integers of the type. -/
def range (scalar : Scalar) : IntegerRange :=
  let count := LittleEndian.range scalar.size
  if scalar.isSigned then .signed count else .unsigned count

/-- The bytes of an integer. -/
def encode (scalar : Scalar) (number : Int) : Vector UInt8 scalar.size :=
  LittleEndian.vector scalar.size (number % LittleEndian.range scalar.size).toNat

/-- The integer of some bytes. -/
def decode (scalar : Scalar) (bytes : List UInt8) : Int :=
  let number := LittleEndian.toNat (bytes.take scalar.size)
  let count := LittleEndian.range scalar.size
  if scalar.isSigned && count / 2 ≤ number then (number : Int) - count else number

/-- The integer that predicates see.  The widest unsigned type is read as the signed one of its
width. -/
def key (scalar : Scalar) (bytes : List UInt8) : Int :=
  match scalar with
  | f32 => Binary.single.truncate (LittleEndian.toNat (bytes.take 4))
  | f64 => Binary.double.truncate (LittleEndian.toNat (bytes.take 8))
  | u128 => i128.decode bytes
  | scalar => scalar.decode bytes

/-- The bytes of several numbers, one after the other. -/
def encodeAll (scalar : Scalar) (count : Nat) (numbers : List Int) :
    Vector UInt8 (scalar.size * count) :=
  let bytes := (numbers.map fun number => (scalar.encode number).toList).flatten.toArray
  Vector.ofFn fun place => bytes[place.val]?.getD 0

/-- The numbers of some bytes. -/
def decodeAll (scalar : Scalar) (count : Nat) (bytes : List UInt8) : List Int :=
  (List.range count).map fun index => scalar.decode (bytes.drop (scalar.size * index))

end Scalar

/-- The types of elements: strings of bytes of one or more scalars, texts, and values that count their
clones. -/
inductive ElementKind where
  | scalars (scalar : Scalar) (count : Nat)
  | texts (count : Nat)
  | tracked
  deriving DecidableEq, Repr

namespace ElementKind

/-- The bytes of a value; a text is kept elsewhere and takes three words. -/
def size : ElementKind → Nat
  | scalars scalar count => scalar.size * count
  | texts count => 24 * count
  | tracked => 8

/-- The type that a word names: a scalar, a text, a few of them side by side, a colour of three bytes,
or the integers that count their clones. -/
def ofName? : String → Option ElementKind
  | "string" => some (texts 1)
  | "stringx2" => some (texts 2)
  | "u8x3" | "rgb" => some (scalars .u8 3)
  | "u32x2" => some (scalars .u32 2)
  | "tracked" => some tracked
  | text => (Scalar.ofName? text).map fun scalar => scalars scalar 1

/-- Whether the values may be copied through their bytes. -/
def isTrivial : ElementKind → Bool
  | scalars .. => true
  | texts _ => false
  | tracked => false

end ElementKind

/-- Integers that count their clones; the clone of one of them, the bomb, panics. -/
def Element.tracked (bomb : Option Int64) : Element Int64 where
  size := 8
  image := none
  clone value :=
    if bomb = some value then .error (.raised (.composed s!"clone of {value.toInt}")) else .ok value

/-- The 64-bit integers, copied through their bytes. -/
def Image.int64 : Image Int64 8 where
  toBytes value := LittleEndian.vector 8 value.toUInt64.toNat
  ofBytes bytes := (UInt64.ofNat (LittleEndian.toNat bytes.toList)).toInt64
  ofBytes_toBytes value := by
    have h : value.toUInt64.toNat < LittleEndian.range 8 := value.toUInt64.toNat_lt
    rw [LittleEndian.toList_vector, LittleEndian.toNat_ofNat, Nat.mod_eq_of_lt h]
    simp
  toBytes_ofBytes bytes := by
    have h : LittleEndian.toNat bytes.toList < LittleEndian.range 8 := by
      have h := LittleEndian.toNat_lt bytes.toList
      rwa [Vector.length_toList] at h
    rw [UInt64.toUInt64_toInt64, UInt64.toNat_ofNat_of_lt' h, LittleEndian.vector_toNat]

/-- The 64-bit integers as elements. -/
def Element.int64 : Element Int64 := ⟨8, some Image.int64, .ok⟩

end BlockMachine
