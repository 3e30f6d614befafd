import BlockMachine.Config.Fields
import BlockMachine.Document.Value

/-!
# Configurations as documents

* `LaunchConfig.members` — the members of the document of a configuration.
* `LaunchConfig.toJson` — its text.
-/

set_option autoImplicit false

namespace BlockMachine

namespace Capability

/-- The document of a level. -/
def value (level : Capability) : Value :=
  .object [("major", .natural level.major.toNat), ("minor", .natural level.minor.toNat)]

end Capability

namespace LaunchConfig

/-- A word that may be absent. -/
def optionalWord : Option UInt64 → Value
  | some word => .natural word.toNat
  | none => .null

/-- The value of a field. -/
def fieldValue (config : LaunchConfig) : ConfigField → Value
  | .threadsPerBlock => .natural config.threadsPerBlock.toNat
  | .multiprocessors => .natural config.multiprocessors.toNat
  | .maxBlocks => optionalWord config.maxBlocks
  | .capability => config.capability.value
  | .scheduling => .text config.scheduling.name
  | .tempLimit => optionalWord config.tempLimit

/-- All fields with their values. -/
def members (config : LaunchConfig) : List (String × Value) :=
  ConfigField.all.map fun field => (field.name, config.fieldValue field)

/-- The document of a configuration. -/
def toJson (config : LaunchConfig) : String :=
  String.ofList (Value.object config.members).render

end LaunchConfig

end BlockMachine
