/-!
# Capability levels

The emulated hardware generation is a `major.minor` level.  Levels are ordered by their major number
first; copies in wide words are reliable from level 2.0 on.
-/

set_option autoImplicit false

namespace BlockMachine

/-- A hardware generation, `major.minor`. -/
structure Capability where
  major : UInt32
  minor : UInt32
  deriving DecidableEq, Repr

namespace Capability

/-- Levels are compared by their major number, and by the minor one if those are equal. -/
protected def compare (a b : Capability) : Ordering :=
  (compare a.major b.major).then (compare a.minor b.minor)

instance : Ord Capability := ⟨Capability.compare⟩

/-- The first generation on which copies in wide words are reliable. -/
def wideCopyMinimum : Capability := ⟨2, 0⟩

/-- The generation that a launch has unless told otherwise. -/
def standard : Capability := ⟨7, 0⟩

/-- Whether block copies may move wide words on this generation. -/
def supportsWideCopy (level : Capability) : Bool :=
  (compare level wideCopyMinimum).isGE

/-- The text `major.minor`. -/
protected def toString (level : Capability) : String :=
  s!"{level.major.toNat}.{level.minor.toNat}"

/-- Levels from the lowest to the highest. -/
def sort (levels : List Capability) : List Capability :=
  levels.mergeSort fun a b => (compare a b).isLE

end Capability

end BlockMachine
