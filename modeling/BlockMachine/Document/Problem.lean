import BlockMachine.Decimal.Shortest
import BlockMachine.Document.Place
import BlockMachine.Scheduling
import BlockMachine.Text.Quoted

/-!
# Problems of a document

Why a configuration document cannot be read.

* `Found`, `Expected` — what stood in the document, and what should have.
* `DocumentProblem` — the causes, with their wording and their category.
* `DocumentError` — a problem and its place.
-/

set_option autoImplicit false

namespace BlockMachine

/-- What was found in a document. -/
inductive Found where
  | null
  | boolean (value : Bool)
  | integer (value : Int)
  /-- A number that is no integer of a word, by its bits in double precision. -/
  | floating (bits : UInt64)
  | text (characters : String)
  | list
  | object
  deriving DecidableEq, Repr

/-- The wording of a finding. -/
def Found.description : Found → String
  | null => "null"
  | boolean value => s!"boolean `{value}`"
  | integer value => s!"integer `{value}`"
  | floating bits => s!"floating point `{Decimal.render bits}`"
  | text characters => s!"string {Text.quote characters}"
  | list => "sequence"
  | object => "map"

/-- What a document should have had. -/
inductive Expected where
  | word
  | halfWord
  | unit
  | configuration
  | capability
  | capabilityPair
  deriving DecidableEq, Repr

/-- The wording of an expectation. -/
def Expected.description : Expected → String
  | word => "usize"
  | halfWord => "u32"
  | unit => "unit"
  | configuration => "struct LaunchConfig"
  | capability => "struct ComputeCapability"
  | capabilityPair => "struct ComputeCapability with 2 elements"

/-- The kinds of problems. -/
inductive ProblemCategory where
  /-- The document ends too early. -/
  | endOfInput
  /-- The document is well formed and says something else than what is asked for. -/
  | data
  /-- The document is not well formed. -/
  | form
  deriving DecidableEq, Repr

/-- The name of a category. -/
def ProblemCategory.name : ProblemCategory → String
  | endOfInput => "Eof"
  | data => "Data"
  | form => "Syntax"

/-- The causes for which a document cannot be read. -/
inductive DocumentProblem where
  | endInList
  | endInObject
  | endInText
  | endInValue
  | colonMissing
  | listCommaMissing
  | objectCommaMissing
  | unknownWord
  | valueMissing
  | invalidEscape
  | invalidNumber
  | numberTooLarge
  | controlCharacter
  | keyIsNoText
  /-- Half of a pair of surrogates where a whole pair must stand. -/
  | loneSurrogate
  /-- The first half of a pair of surrogates without a second one. -/
  | openSurrogate
  | trailingComma
  | trailingCharacters
  | unexpectedType (found : Found) (expected : Expected)
  | unexpectedValue (found : Found) (expected : Expected)
  | wrongLength (length : Nat) (expected : Expected)
  | unknownVariant (name : String)
  | duplicateField (name : String)
  | missingField (name : String)
  deriving DecidableEq, Repr

namespace DocumentProblem

/-- The names of all policies, each between backquotes. -/
def policies : String :=
  ", ".intercalate (Scheduling.all.map fun policy => s!"`{policy.name}`")

/-- The wording of a problem. -/
def message : DocumentProblem → String
  | endInList => "EOF while parsing a list"
  | endInObject => "EOF while parsing an object"
  | endInText => "EOF while parsing a string"
  | endInValue => "EOF while parsing a value"
  | colonMissing => "expected `:`"
  | listCommaMissing => "expected `,` or `]`"
  | objectCommaMissing => "expected `,` or `\x7d`"
  | unknownWord => "expected ident"
  | valueMissing => "expected value"
  | invalidEscape => "invalid escape"
  | invalidNumber => "invalid number"
  | numberTooLarge => "number out of range"
  | controlCharacter => "control character (\\u0000-\\u001F) found while parsing a string"
  | keyIsNoText => "key must be a string"
  | loneSurrogate => "lone leading surrogate in hex escape"
  | openSurrogate => "unexpected end of hex escape"
  | trailingComma => "trailing comma"
  | trailingCharacters => "trailing characters"
  | unexpectedType found expected =>
    s!"invalid type: {found.description}, expected {expected.description}"
  | unexpectedValue found expected =>
    s!"invalid value: {found.description}, expected {expected.description}"
  | wrongLength length expected => s!"invalid length {length}, expected {expected.description}"
  | unknownVariant name => s!"unknown variant `{name}`, expected one of {policies}"
  | duplicateField name => s!"duplicate field `{name}`"
  | missingField name => s!"missing field `{name}`"

/-- The category of a problem. -/
def category : DocumentProblem → ProblemCategory
  | endInList | endInObject | endInText | endInValue => .endOfInput
  | unexpectedType .. | unexpectedValue .. | wrongLength .. | unknownVariant _ | duplicateField _
  | missingField _ => .data
  | _ => .form

end DocumentProblem

/-- A problem and its place in the document. -/
structure DocumentError where
  problem : DocumentProblem
  place : Place
  deriving DecidableEq, Repr

/-- The wording of an error: the problem, and where it was met. -/
def DocumentError.message (error : DocumentError) : String :=
  s!"{error.problem.message} at line {error.place.line} column {error.place.column}"

end BlockMachine
