/-!
# Numbers as bytes

A number is written as a fixed number of bytes, the least significant one first.

* `LittleEndian.toNat`, `LittleEndian.ofNat` — the number of some bytes, and the bytes of a number.
* `LittleEndian.toNat_ofNat`, `LittleEndian.ofNat_toNat` — the two undo each other.
-/

set_option autoImplicit false

namespace BlockMachine

namespace LittleEndian

/-- The number that some bytes stand for. -/
def toNat : List UInt8 → Nat
  | [] => 0
  | byte :: rest => byte.toNat + 256 * toNat rest

/-- The low bytes of a number. -/
def ofNat : (size number : Nat) → List UInt8
  | 0, _ => []
  | size + 1, number => UInt8.ofNat number :: ofNat size (number / 256)

/-- The number of values of some bytes. -/
def range : (size : Nat) → Nat
  | 0 => 1
  | size + 1 => 256 * range size

@[simp] theorem length_ofNat (size number : Nat) : (ofNat size number).length = size := by
  induction size generalizing number with
  | zero => rfl
  | succ size ih => simp [ofNat, ih]

/-- Writing keeps the number up to the range of the bytes. -/
theorem toNat_ofNat (size number : Nat) : toNat (ofNat size number) = number % range size := by
  induction size generalizing number with
  | zero => rw [ofNat, toNat, range, Nat.mod_one]
  | succ size ih =>
    rw [ofNat, toNat, ih, range, Nat.mod_mul]
    simp

/-- Every list of bytes is the writing of its number. -/
theorem ofNat_toNat (bytes : List UInt8) : ofNat bytes.length (toNat bytes) = bytes := by
  induction bytes with
  | nil => rfl
  | cons byte rest ih =>
    have h : byte.toNat < 256 := byte.toNat_lt
    have low : UInt8.ofNat (byte.toNat + 256 * toNat rest) = byte := by
      apply UInt8.toNat_inj.mp
      simp
    have high : (byte.toNat + 256 * toNat rest) / 256 = toNat rest := by omega
    rw [List.length_cons, toNat, ofNat, low, high, ih]

theorem toNat_lt (bytes : List UInt8) : toNat bytes < range bytes.length := by
  induction bytes with
  | nil => exact Nat.one_pos
  | cons byte rest ih =>
    have h : byte.toNat < 256 := byte.toNat_lt
    rw [toNat, List.length_cons, range]
    omega

/-- The low bytes of a number, as a vector. -/
def vector (size number : Nat) : Vector UInt8 size :=
  ⟨(ofNat size number).toArray, by simp⟩

theorem toList_vector (size number : Nat) : (vector size number).toList = ofNat size number := rfl

theorem vector_toNat {size : Nat} (bytes : Vector UInt8 size) :
    vector size (toNat bytes.toList) = bytes := by
  apply Vector.toList_inj.mp
  rw [toList_vector]
  have h := ofNat_toNat bytes.toList
  rwa [Vector.length_toList] at h

end LittleEndian

end BlockMachine
