import BlockMachine.Panic

/-!
# Elements in memory

An element type either copies through its bytes or has to be cloned value by value.

* `Image` — a type whose values are exactly the strings of a fixed number of bytes.
* `Element` — the size of a type, its image if it has one, and how its values are cloned.
* `Element.writeBytes` — bytes laid over an array of elements, which may cut through elements.
* `Placed` — an array together with the address of its first byte.
-/

set_option autoImplicit false

namespace BlockMachine

/-- A type whose values are exactly the strings of `size` bytes. -/
structure Image (α : Type) (size : Nat) where
  toBytes : α → Vector UInt8 size
  ofBytes : Vector UInt8 size → α
  ofBytes_toBytes : ∀ value, ofBytes (toBytes value) = value
  toBytes_ofBytes : ∀ bytes, toBytes (ofBytes bytes) = bytes

namespace Image

variable {α : Type} {size : Nat}

/-- The byte at a place within a value. -/
def byte (image : Image α size) (value : α) (place : Nat) : UInt8 :=
  (image.toBytes value)[place]?.getD 0

/-- The value with one of its bytes replaced. -/
def setByte (image : Image α size) (value : α) (place : Nat) (byte : UInt8) : α :=
  image.ofBytes ((image.toBytes value).setIfInBounds place byte)

/-- Strings of bytes are their own image. -/
def self (size : Nat) : Image (Vector UInt8 size) size :=
  ⟨id, id, fun _ => rfl, fun _ => rfl⟩

end Image

/-- How the values of a type are stored and copied. -/
structure Element (α : Type) where
  /-- The bytes that a value takes. -/
  size : Nat
  /-- The image of a type that may be copied through its bytes. -/
  image : Option (Image α size)
  /-- The copy of one value, which the type may refuse. -/
  clone : α → Except Panic α

namespace Element

variable {α : Type}

/-- Whether the values may be copied through their bytes. -/
def isTrivial (element : Element α) : Bool := element.image.isSome

/-- Values that are plain bytes. -/
def raw (size : Nat) : Element (Vector UInt8 size) :=
  ⟨size, some (Image.self size), .ok⟩

/-- Values that can only be cloned, which always succeeds. -/
def cloned (size : Nat) : Element α := ⟨size, none, .ok⟩

/-- The byte at a position, counted from the first byte of an array of elements. -/
def byteAt (element : Element α) (values : Array α) (position : Nat) : UInt8 :=
  match element.image, values[position / element.size]? with
  | some image, some value => image.byte value (position % element.size)
  | _, _ => 0

/-- An array of elements with one of its bytes replaced. -/
def writeByte (element : Element α) (values : Array α) (position : Nat) (byte : UInt8) : Array α :=
  match element.image with
  | none => values
  | some image =>
    values.modify (position / element.size) fun value =>
      image.setByte value (position % element.size) byte

/-- An array of elements with the bytes from a position on replaced. -/
def writeBytes (element : Element α) (values : Array α) (position : Nat) : List UInt8 → Array α
  | [] => values
  | byte :: rest => element.writeBytes (element.writeByte values position byte) (position + 1) rest

end Element

/-- An array together with the address of its first byte. -/
structure Placed (α : Type) where
  values : Array α
  address : Nat

namespace Placed

variable {α : Type}

/-- The number of elements. -/
def length (source : Placed α) : Nat := source.values.size

/-- One element of the array. -/
def get (source : Placed α) (index : Nat) : Except Panic α :=
  match source.values[index]? with
  | some value => .ok value
  | none => .error (.indexOutOfBounds source.length index)

/-- The elements from `start` up to `stop`, at the place where they lie. -/
def slice (source : Placed α) (size start stop : Nat) : Except Panic (Placed α) :=
  if source.length < start then .error (.rangeStartOutOfBounds start source.length)
  else if source.length < stop then .error (.rangeEndOutOfBounds stop source.length)
  else .ok ⟨source.values.extract start stop, source.address + start * size⟩

end Placed

end BlockMachine
