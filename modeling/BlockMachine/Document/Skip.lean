import BlockMachine.Document.Literal
import BlockMachine.Document.Numeral

/-!
# Values that are passed over

The value of a member that nobody asks for must be well formed and is not looked at otherwise.  Lists
and objects may be nested to any depth; the brackets that are open are kept in a list.
-/

set_option autoImplicit false

namespace BlockMachine

/-- A bracket that is open. -/
inductive Bracket where
  | list
  | object
  deriving DecidableEq, Repr

namespace Bracket

/-- The character that closes a bracket. -/
def closing : Bracket → Char
  | list => ']'
  | object => '}'

/-- The problem of a document that ends within a bracket. -/
def atEnd : Bracket → DocumentProblem
  | list => .endInList
  | object => .endInObject

/-- The problem of two values in a bracket with no comma between them. -/
def commaMissing : Bracket → DocumentProblem
  | list => .listCommaMissing
  | object => .objectCommaMissing

end Bracket

namespace Reader

/-- Passes a value without parts, or the opening bracket of another one. -/
def skipHead : Reader (Option Bracket) := do
  match ← next with
  | none => failNext .endInValue
  | some c =>
    if startsNumber c then
      skipNumber
      return none
    else match c with
      | 'n' => do
        word "null".toList
        return none
      | 't' => do
        word "true".toList
        return none
      | 'f' => do
        word "false".toList
        return none
      | '"' => do
        take
        skipText
        return none
      | '[' => do
        take
        return some .list
      | '{' => do
        take
        return some .object
      | _ => failNext .valueMissing

/-- Passes what stands in front of a value in a bracket: in an object, its name. -/
def skipName : Bracket → Reader Unit
  | .list => return ()
  | .object => do
    match ← next with
    | some '"' => take
    | some _ => failNext .keyIsNoText
    | none => failNext .endInObject
    skipText
    colon

/-- Behind a value: closes brackets, up to a comma with another value behind it.  The result is what stays
open, or `none` if everything is closed. -/
def afterValue : List Bracket → Reader (Option (List Bracket))
  | [] => return none
  | bracket :: outer => do
    match ← next with
    | none => failNext bracket.atEnd
    | some c =>
      if c = bracket.closing then
        take
        afterValue outer
      else if c = ',' then
        take
        skipName bracket
        return some (bracket :: outer)
      else failNext bracket.commaMissing

/-- Behind an opening bracket: the same, for a bracket that may be empty. -/
def afterOpening (bracket : Bracket) (outer : List Bracket) : Reader (Option (List Bracket)) := do
  match ← next with
  | none => failNext bracket.atEnd
  | some c =>
    if c = bracket.closing then
      take
      afterValue outer
    else
      skipName bracket
      return some (bracket :: outer)

/-- Passes values until all brackets are closed.  Every turn passes a character or fails, so one turn more
than there are characters is enough. -/
def skipOpen : (turns : Nat) → List Bracket → Reader Unit
  | 0, _ => return ()
  | turns + 1, outer => do
    let left ← match ← skipHead with
      | none => afterValue outer
      | some bracket => afterOpening bracket outer
    match left with
    | none => return ()
    | some outer => skipOpen turns outer

/-- Passes a value. -/
def skipValue : Reader Unit := do
  skipOpen ((← get).rest.length + 1) []

end Reader

end BlockMachine
