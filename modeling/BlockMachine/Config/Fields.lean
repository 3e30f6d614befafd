import BlockMachine.Config
import BlockMachine.Document.Skip
import BlockMachine.Error

/-!
# Configuration documents

A configuration is written as an object with a member for each of its fields, or as a list of their
values in a fixed order.  Fields that are left out have their default value, and members of other
names are passed over.

* `ConfigField` — the fields, with their names.
* `ConfigFields` — what a document says: for each field a value or nothing.
* `ConfigFields.read` — the fields of a document.
* `LaunchConfig.fromJson` — the configuration of a document, if it can be launched.
-/

set_option autoImplicit false

namespace BlockMachine

/-- The fields of a configuration. -/
inductive ConfigField where
  | threadsPerBlock
  | multiprocessors
  | maxBlocks
  | capability
  | scheduling
  | tempLimit
  deriving DecidableEq, Repr

namespace ConfigField

/-- All fields, in the order of a list of their values. -/
def all : List ConfigField :=
  [threadsPerBlock, multiprocessors, maxBlocks, capability, scheduling, tempLimit]

/-- The name of a field in a document. -/
def name : ConfigField → String
  | threadsPerBlock => "threads_per_block"
  | multiprocessors => "multiprocessor_count"
  | maxBlocks => "max_blocks"
  | capability => "compute_capability"
  | scheduling => "scheduling"
  | tempLimit => "temp_storage_limit_bytes"

/-- The field of a name. -/
def ofName? (text : String) : Option ConfigField :=
  all.find? fun field => field.name == text

end ConfigField

/-- What a document says about a configuration. -/
structure ConfigFields where
  threadsPerBlock : Option UInt64 := none
  multiprocessors : Option UInt64 := none
  maxBlocks : Option (Option UInt64) := none
  capability : Option Capability := none
  scheduling : Option Scheduling := none
  tempLimit : Option (Option UInt64) := none
  deriving DecidableEq, Repr

/-- What a document says about a capability level. -/
structure CapabilityFields where
  major : Option UInt32 := none
  minor : Option UInt32 := none
  deriving DecidableEq, Repr

namespace Reader

variable {β : Type}

/-- What stands where something else should: a value without parts, or the bracket of another one. -/
def found : Reader Found := do
  match ← peek with
  | none => failNext .valueMissing
  | some c =>
    if startsNumber c then return (← number).found
    else match c with
      | 'n' => do
        word "null".toList
        return .null
      | 't' => do
        word "true".toList
        return .boolean true
      | 'f' => do
        word "false".toList
        return .boolean false
      | '"' => do
        take
        return .text (← text)
      | '[' => return .list
      | '{' => return .object
      | _ => failNext .valueMissing

/-- Fails because something else should stand here. -/
def unexpected (expected : Expected) : Reader β := do
  fail (.unexpectedType (← found) expected)

/-- A natural number below a limit. -/
def natural (expected : Expected) (limit : Nat) : Reader Nat := do
  match ← next with
  | none => failNext .endInValue
  | some c =>
    if startsNumber c then
      match ← number with
      | .natural value =>
        if value < limit then return value
        else fail (.unexpectedValue (.integer value) expected)
      | .negative magnitude => fail (.unexpectedValue (.integer (-magnitude)) expected)
      | .floating bits => fail (.unexpectedType (.floating bits) expected)
    else unexpected expected

/-- A word. -/
def word64 : Reader UInt64 := return UInt64.ofNat (← natural .word Word.limit)

/-- Half a word. -/
def word32 : Reader UInt32 := return UInt32.ofNat (← natural .halfWord UInt32.size)

/-- A word or `null`. -/
def optionalWord : Reader (Option UInt64) := do
  if (← next) = some 'n' then
    word "null".toList
    return none
  else return some (← word64)

/-- The members of an object whose brace has been passed: each is read by its name into what is known
so far.  Every turn passes a character at least. -/
def members (member : β → String → Reader β) : (turns : Nat) → (isFirst : Bool) → β → Reader β
  | 0, _, known => return known
  | turns + 1, isFirst, known => do
    if ← moreMembers isFirst then
      take
      let known ← member known (← text)
      members member turns false known
    else return known

/-- The members of an object whose brace has been passed. -/
def object (member : β → String → Reader β) (known : β) : Reader β := do
  members member ((← get).rest.length + 1) true known

/-- The member of a name that nobody asks for. -/
def otherMember : Reader Unit := do
  colon
  skipValue

/-- A value with parts, which are written as a list or as an object. -/
def parts (expected : Expected) (ofList ofObject : Reader β) : Reader β := do
  match ← next with
  | none => failNext .endInValue
  | some '[' => do
    take
    let value ← ofList
    closeList
    return value
  | some '{' => do
    take
    let value ← ofObject
    closeObject
    return value
  | some _ => unexpected expected

end Reader

namespace CapabilityFields

/-- The level, if it is complete. -/
def level : CapabilityFields → Reader Capability
  | ⟨some major, some minor⟩ => return ⟨major, minor⟩
  | ⟨none, _⟩ => Reader.failAtEnd '}' (.missingField "major")
  | ⟨some _, none⟩ => Reader.failAtEnd '}' (.missingField "minor")

/-- One member of a level. -/
def member (known : CapabilityFields) (name : String) : Reader CapabilityFields := do
  if name = "major" then
    if known.major.isSome then Reader.failAtEnd '}' (.duplicateField name)
    Reader.colon
    return { known with major := some (← Reader.word32) }
  else if name = "minor" then
    if known.minor.isSome then Reader.failAtEnd '}' (.duplicateField name)
    Reader.colon
    return { known with minor := some (← Reader.word32) }
  else
    Reader.otherMember
    return known

/-- A level as a list of its two numbers. -/
def items : Reader Capability := do
  if !(← Reader.moreItems true) then
    Reader.failAtEnd ']' (.wrongLength 0 .capabilityPair)
  let major ← Reader.word32
  if !(← Reader.moreItems false) then
    Reader.failAtEnd ']' (.wrongLength 1 .capabilityPair)
  let minor ← Reader.word32
  return ⟨major, minor⟩

/-- A level. -/
def read : Reader Capability :=
  Reader.parts .capability items do
    let known ← Reader.object member {}
    known.level

end CapabilityFields

namespace Scheduling

/-- The name of a policy, as a text whose quote is next. -/
def readName : Reader Scheduling := do
  Reader.take
  let name ← Reader.text
  match ofName? name with
  | some policy => return policy
  | none => Reader.fail (.unknownVariant name)

/-- The name of the only member of an object, whose brace has been passed. -/
def readKey : Reader Scheduling := do
  match ← Reader.next with
  | some '"' => readName
  | some '}' => Reader.failNext .valueMissing
  | some _ => Reader.failNext .keyIsNoText
  | none => Reader.failNext .endInObject

/-- The word `null`. -/
def readUnit : Reader Unit := do
  match ← Reader.next with
  | none => Reader.failNext .endInValue
  | some 'n' => Reader.word "null".toList
  | some _ => Reader.unexpected .unit

/-- A policy: its name, or an object whose only member has this name and the value `null`. -/
def read : Reader Scheduling := do
  match ← Reader.next with
  | none => Reader.failNext .endInValue
  | some '"' => readName
  | some '{' => do
    Reader.take
    let policy ← readKey
    Reader.colon
    readUnit
    match ← Reader.next with
    | none => Reader.fail .endInObject
    | some '}' => do
      Reader.take
      return policy
    | some _ => Reader.fail .valueMissing
  | some _ => Reader.failNext .valueMissing

end Scheduling

namespace ConfigFields

/-- Whether a field is known. -/
def has (known : ConfigFields) : ConfigField → Bool
  | .threadsPerBlock => known.threadsPerBlock.isSome
  | .multiprocessors => known.multiprocessors.isSome
  | .maxBlocks => known.maxBlocks.isSome
  | .capability => known.capability.isSome
  | .scheduling => known.scheduling.isSome
  | .tempLimit => known.tempLimit.isSome

/-- Reads the value of a field. -/
def readField (known : ConfigFields) : ConfigField → Reader ConfigFields
  | .threadsPerBlock => return { known with threadsPerBlock := some (← Reader.word64) }
  | .multiprocessors => return { known with multiprocessors := some (← Reader.word64) }
  | .maxBlocks => return { known with maxBlocks := some (← Reader.optionalWord) }
  | .capability => return { known with capability := some (← CapabilityFields.read) }
  | .scheduling => return { known with scheduling := some (← Scheduling.read) }
  | .tempLimit => return { known with tempLimit := some (← Reader.optionalWord) }

/-- One member of a configuration. -/
def member (known : ConfigFields) (name : String) : Reader ConfigFields := do
  match ConfigField.ofName? name with
  | some field =>
    if known.has field then Reader.failAtEnd '}' (.duplicateField name)
    Reader.colon
    known.readField field
  | none =>
    Reader.otherMember
    return known

/-- A list of the values of some fields, of which the last ones may be left out. -/
def items (known : ConfigFields) (isFirst : Bool) : List ConfigField → Reader ConfigFields
  | [] => return known
  | field :: rest => do
    if ← Reader.moreItems isFirst then
      let known ← known.readField field
      known.items false rest
    else return known

/-- What a document says about a configuration. -/
def reader : Reader ConfigFields :=
  Reader.parts .configuration (items {} true ConfigField.all) (Reader.object member {})

/-- The fields of a document. -/
def read (text : String) : Except DocumentError ConfigFields := reader.readText text

/-- The configuration of which a document tells, on a host with a number of processors. -/
def config (fields : ConfigFields) (hostProcessors : UInt64) : LaunchConfig where
  threadsPerBlock := fields.threadsPerBlock.getD 256
  multiprocessors := fields.multiprocessors.getD hostProcessors
  maxBlocks := fields.maxBlocks.getD none
  capability := fields.capability.getD Capability.standard
  scheduling := fields.scheduling.getD Scheduling.parallel
  tempLimit := fields.tempLimit.getD none

end ConfigFields

/-- The configuration of a document, if it can be launched. -/
def LaunchConfig.fromJson (hostProcessors : UInt64) (text : String) :
    Except LibraryError LaunchConfig :=
  match ConfigFields.read text with
  | .error error => .error (.unreadable error)
  | .ok fields =>
    let config := fields.config hostProcessors
    match config.validate with
    | .error problem => .error (.invalidConfig problem)
    | .ok () => .ok config

end BlockMachine
