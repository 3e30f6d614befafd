import BlockMachine.Document.Problem

/-!
# Readers of a document

A reader takes a document from a cursor on and either gives a value with the cursor behind it, or fails
with a problem and its place.  A problem that is noticed at a character is placed behind its first byte,
all others where the cursor stands.

* `Reader.fail`, `Reader.failNext` — the two places of a problem.
* `Reader.next` — the next character that is no blank.
* `Reader.word` — the rest of `null`, `true` or `false`.
* `Reader.moreItems`, `Reader.moreMembers`, `Reader.colon`, `Reader.closeList`, `Reader.closeObject` —
  what stands between the parts of lists and objects.
-/

set_option autoImplicit false

namespace BlockMachine

/-- What is read from a cursor on. -/
abbrev Reader := StateT Cursor (Except DocumentError)

namespace Reader

variable {α β : Type}

/-- Fails with a problem at the cursor. -/
def fail (problem : DocumentProblem) : Reader α := fun cursor => .error ⟨problem, cursor.place⟩

/-- Fails with a problem of the next character; at the end of the document, there. -/
def failNext (problem : DocumentProblem) : Reader α := fun cursor =>
  .error ⟨problem, cursor.place.afterBytes 1 cursor.rest⟩

/-- The next character, which is not passed. -/
def peek : Reader (Option Char) := fun cursor => .ok (cursor.rest.head?, cursor)

/-- Passes one character. -/
def take : Reader Unit := modify (Cursor.pass · 1)

/-- The next character that is no blank.  The blanks before it are passed, and it is not. -/
def next : Reader (Option Char) := do
  modify Cursor.skipBlanks
  peek

/-- The letters of a word, which must be next. -/
def word : List Char → Reader Unit
  | [] => return ()
  | letter :: rest => do
    match ← peek with
    | none => fail .endInValue
    | some c =>
      if c = letter then
        take
        word rest
      else failNext .unknownWord

/-- The digits that come next, if any. -/
def digits : Reader (List Nat) := fun cursor =>
  let digits := cursor.rest.takeWhile Char.isDigit
  .ok (digits.map fun digit => digit.toNat - '0'.toNat, cursor.pass digits.length)

/-- The colon behind the name of a member. -/
def colon : Reader Unit := do
  match ← next with
  | some ':' => take
  | some _ => failNext .colonMissing
  | none => failNext .endInObject

/-- Whether a list has another item, in front of which the cursor stands then. -/
def moreItems (isFirst : Bool) : Reader Bool := do
  match ← next with
  | none => failNext .endInList
  | some ']' => return false
  | some c =>
    if isFirst then return true
    else if c = ',' then
      take
      match ← next with
      | some ']' => failNext .trailingComma
      | some _ => return true
      | none => failNext .endInValue
    else failNext .listCommaMissing

/-- Whether an object has another member, in front of whose name the cursor stands then. -/
def moreMembers (isFirst : Bool) : Reader Bool := do
  match ← next with
  | none => failNext .endInObject
  | some '}' => return false
  | some c =>
    if isFirst then
      if c = '"' then return true else failNext .keyIsNoText
    else if c = ',' then
      take
      match ← next with
      | some '"' => return true
      | some '}' => failNext .trailingComma
      | some _ => failNext .keyIsNoText
      | none => failNext .endInValue
    else failNext .objectCommaMissing

/-- The end of a list. -/
def closeList : Reader Unit := do
  match ← next with
  | some ']' => take
  | some ',' =>
    take
    match ← next with
    | some ']' => failNext .trailingComma
    | _ => failNext .trailingCharacters
  | some _ => failNext .trailingCharacters
  | none => failNext .endInList

/-- The end of an object. -/
def closeObject : Reader Unit := do
  match ← next with
  | some '}' => take
  | some ',' => failNext .trailingComma
  | some _ => failNext .trailingCharacters
  | none => failNext .endInObject

/-- Fails with a problem of a whole list or object: behind the blanks that follow, and behind its closing
bracket if that is next. -/
def failAtEnd (closing : Char) (problem : DocumentProblem) : Reader α := do
  if (← next) = some closing then take
  fail problem

/-- The end of the document. -/
def finish : Reader Unit := do
  if (← next).isSome then failNext .trailingCharacters

/-- What a reader makes of a whole text. -/
def readText (reader : Reader α) (text : String) : Except DocumentError α := do
  let (value, cursor) ← reader.run (.ofText text)
  let _ ← finish.run cursor
  return value

end Reader

end BlockMachine
