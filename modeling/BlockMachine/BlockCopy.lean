import BlockMachine.Launch
import BlockMachine.Memory.WriteView

/-!
# Copies by a whole block

All lanes of a block move consecutive elements together: lane `t` of `T` takes the items
`t, t + T, t + 2T, …`.  Types that copy through their bytes are moved in words of eight bytes if both
ends are at multiples of eight, and byte by byte otherwise; all others are cloned.  The copy has no
barrier of its own.

* `BlockCopy.choosePath` — how a copy is carried out.
* `BlockCopy.copyBytes` — the copy of a string of bytes.
* `BlockCopy.copy` — the copy of elements, which returns the end of what it wrote.
* `BlockCopy.kernel`, `BlockCopy.bytesKernel` — launches that do nothing else.
-/

set_option autoImplicit false

namespace BlockMachine

namespace BlockCopy

variable {σ α : Type}

/-- The bytes of a wide word. -/
def wordBytes : Nat := 8

/-- Does the work for each item of a lane's share. -/
def forShare (context : LaneContext) (count : Nat) (work : Nat → Lane σ α Unit) : Lane σ α Unit :=
  if context.blockSize = 0 then .fault .zeroStride
  else Lane.forEach (context.share count) work

/-- Whether an address is a multiple of a wide word. -/
def onWord (address : Nat) : Bool := address % wordBytes == 0

/-- How elements are copied between two addresses. -/
def choosePath (wideCopy trivial : Bool) (source target : Nat) : CopyPath :=
  if !trivial || !wideCopy then .elementwise
  else if onWord source && onWord target then .wide
  else .bytewise

/-- A string of bytes in memory. -/
structure Bytes where
  byte : Nat → UInt8
  length : Nat
  address : Nat

/-- The bytes of a string from a position on, a number of them. -/
def Bytes.chunk (source : Bytes) (start count : Nat) : List UInt8 :=
  (List.range count).map fun offset => source.byte (start + offset)

/-- The number of wide words of a string whose bytes are read as words. -/
def Bytes.words (source : Bytes) (length : Nat) : Except Panic Nat :=
  if source.address % wordBytes ≠ 0 ∨ length % wordBytes ≠ 0 then .error .wordsMisaligned
  else .ok (length / wordBytes)

/-- Copies a string of bytes to the start of a view of bytes. -/
def copyBytes (context : LaneContext) (target : WriteView) (source : Bytes) : Lane σ α Unit := do
  if target.length < source.length then
    .fault (.bytesPastEnd source.length target.length)
  else if onWord source.address && onWord target.address then do
    let wholeWords := source.length / wordBytes * wordBytes
    let words ← Lane.ofExcept (source.words wholeWords)
    let wordView ← Lane.ofExcept (target.cast wordBytes words)
    forShare context words fun word =>
      wordView.writeBytes word (source.chunk (word * wordBytes) wordBytes)
    let rest ← Lane.ofExcept (target.dropFirst wholeWords)
    forShare context (source.length - wholeWords) fun index =>
      rest.writeBytes index (source.chunk (wholeWords + index) 1)
  else
    forShare context source.length fun index => target.writeBytes index (source.chunk index 1)

/-- The bytes of an array of elements. -/
def bytesOf (element : Element α) (source : Placed α) : Bytes :=
  ⟨element.byteAt source.values, source.length * element.size, source.address⟩

/-- Copies elements one by one, each by a clone. -/
def copyElements (context : LaneContext) (target : WriteView) (source : Placed α) : Lane σ α Unit :=
  forShare context source.length fun index => do
    let value ← Lane.ofExcept (source.get index)
    let value ← Lane.clone value
    target.write index value

/-- Copies elements to the places of a destination from number `first` on, and returns the end of
what was written. -/
def copy (element : Element α) (context : LaneContext) (source : Placed α) (destination : WriteView)
    (first : Nat) : Lane σ α Nat := do
  let target ← Lane.ofExcept (destination.dropFirst first)
  if target.length < source.length then .fault (.copyPastEnd source.length)
  else do
    let path := choosePath context.wideCopy element.isTrivial source.address target.address
    if context.lane = 0 then
      Lane.note (.bulkCopy ⟨context.block, source.length, path, source.address, target.address⟩)
    match path with
    | .elementwise => copyElements context target source
    | .wide | .bytewise => do
      let bytes := bytesOf element source
      let target ← Lane.ofExcept (target.cast 1 bytes.length)
      copyBytes context target bytes
    Lane.ofExcept (Word.add first source.length)

/-- The view of all of a destination. -/
def destination (element : Element α) (output : Array α) (address : Nat) : WriteView :=
  .whole address element.size output.size

/-- Callbacks of kernels that read no view and combine nothing. -/
def callbacks (element : Element α) : Callbacks Unit α :=
  ⟨fun index _ => .error (.indexOutOfBounds 0 index), fun _ _ => .ok (), element⟩

/-- A launch whose lanes copy elements. -/
def kernel (element : Element α) (source : Placed α) (destination : WriteView) (first : Nat) :
    Kernel Unit α where
  slots _ := .ok #[]
  program context := do
    let _ ← copy element context source destination first
  callbacks := callbacks element

/-- A launch whose lanes copy bytes. -/
def bytesKernel (element : Element α) (source : Placed α) (target : WriteView) : Kernel Unit α where
  slots _ := .ok #[]
  program context := copyBytes context target (bytesOf element source)
  callbacks := callbacks element

end BlockCopy

end BlockMachine
