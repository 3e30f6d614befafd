/-!
# Release

The version of the library.
-/

set_option autoImplicit false

namespace BlockMachine

/-- The version of the library. -/
def release : String := "0.3.0"

end BlockMachine
