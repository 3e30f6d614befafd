import BlockMachine.View

/-!
# Validity masks

A mask is a window of the bits of some bytes, the least significant bit of each byte first.

* `Mask.bit` — a bit of the window.
* `Mask.view` — the mask as a view of truth values.
* `Mask.countOnes` — the number of set bits.
-/

set_option autoImplicit false

namespace BlockMachine

/-- The `length` bits from bit `start` of some bytes on. -/
structure Mask where
  bytes : Array UInt8
  start : Nat
  length : Nat
  fits : start + length ≤ 8 * bytes.size

namespace Mask

/-- The window, if the bytes have that many bits. -/
def window? (bytes : Array UInt8) (start length : Nat) : Option Mask :=
  if fits : start + length ≤ 8 * bytes.size then some ⟨bytes, start, length, fits⟩ else none

/-- A byte from its bits, the least significant one first. -/
def packByte : List Bool → UInt8
  | [] => 0
  | bit :: rest => (if bit then 1 else 0) + 2 * packByte rest

/-- Bytes from bits, eight at a time. -/
def pack (bits : List Bool) : Array UInt8 :=
  ((List.range ((bits.length + 7) / 8)).map fun index =>
    packByte ((bits.drop (8 * index)).take 8)).toArray

/-- A bit of the window; bits past its end count as clear. -/
def bit (mask : Mask) (index : Nat) : Bool :=
  let place := mask.start + index
  decide (index < mask.length) && (mask.bytes[place / 8]?.getD 0).toNat.testBit (place % 8)

/-- The bits of the window, the first one first. -/
def toList (mask : Mask) : List Bool := (List.range mask.length).map mask.bit

/-- The window cut down to its first bits; it never grows. -/
def take (mask : Mask) (length : Nat) : Mask :=
  ⟨mask.bytes, mask.start, min length mask.length, by have := mask.fits; omega⟩

/-- The number of set bits. -/
def countOnes (mask : Mask) : Nat := (mask.toList.filter id).length

/-- The bits as a view; an index past the end is a panic. -/
def view (mask : Mask) : View Bool where
  length := mask.length
  item index _ :=
    if index < mask.length then .ok (mask.bit index)
    else .error (.bitOutOfBounds mask.length index)

end Mask

end BlockMachine
