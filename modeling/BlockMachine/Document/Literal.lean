import BlockMachine.Document.Reader

/-!
# Texts in a document

The characters of a text stand between double quotes; a backslash begins an escape, and control
characters must be escaped.  Characters beyond the first plane may be written as a pair of surrogates.

* `Reader.text` — a text, of which only the opening quote has been passed.
* `Reader.skipText` — the same without its value: what the escapes stand for is not looked at.
-/

set_option autoImplicit false

namespace BlockMachine

namespace Literal

/-- The character that a letter behind a backslash stands for. -/
def escaped? : Char → Option Char
  | '"' => some '"'
  | '\\' => some '\\'
  | '/' => some '/'
  | 'b' => some '\x08'
  | 'f' => some '\x0c'
  | 'n' => some '\n'
  | 'r' => some '\r'
  | 't' => some '\t'
  | _ => none

/-- The value of a hexadecimal digit. -/
def hexDigit? (c : Char) : Option Nat :=
  if c.isDigit then some (c.toNat - '0'.toNat)
  else if 'a' ≤ c ∧ c ≤ 'f' then some (c.toNat - 'a'.toNat + 10)
  else if 'A' ≤ c ∧ c ≤ 'F' then some (c.toNat - 'A'.toNat + 10)
  else none

/-- The value of four hexadecimal digits. -/
def hexValue? (chars : List Char) : Option Nat := do
  let digits ← chars.mapM hexDigit?
  guard (digits.length = 4)
  return digits.foldl (fun value digit => 16 * value + digit) 0

/-- The number that the next four bytes write in hexadecimal. -/
def unit (place : Place) (rest : List Char) : Except DocumentError Nat :=
  let bytes := (rest.take 4).foldl (fun bytes c => bytes + c.utf8Size) 0
  match hexValue? (rest.take 4) with
  | some value => .ok value
  | none =>
    .error ⟨if bytes < 4 then .endInText else .invalidEscape, place.afterBytes 4 rest⟩

/-- Whether a number is the first half of a pair of surrogates. -/
def isLeading (unit : Nat) : Bool := 0xD800 ≤ unit && unit < 0xDC00

/-- Whether a number is the second half of a pair of surrogates. -/
def isTrailing (unit : Nat) : Bool := 0xDC00 ≤ unit && unit < 0xE000

/-- The code point of a pair of surrogates. -/
def pairValue (leading trailing : Nat) : Nat :=
  0x10000 + (leading - 0xD800) * 0x400 + (trailing - 0xDC00)

/-- The second half of a pair of surrogates, which must be next. -/
def trailingUnit (place : Place) (rest : List Char) : Except DocumentError Nat := do
  match rest with
  | '\\' :: 'u' :: rest =>
    let place := place.through ['\\', 'u']
    let value ← unit place rest
    if isTrailing value then return value
    else throw ⟨.loneSurrogate, place.afterBytes 4 rest⟩
  | '\\' :: rest =>
    let problem := if rest.isEmpty then .endInText else .openSurrogate
    throw ⟨problem, (place.after '\\').afterBytes 1 rest⟩
  | rest =>
    let problem := if rest.isEmpty then .endInText else .openSurrogate
    throw ⟨problem, place.afterBytes 1 rest⟩

/-- The character of an escape by number, and the number of characters behind the `u` that write it. -/
def numbered (place : Place) (rest : List Char) : Except DocumentError (Char × Nat) := do
  let value ← unit place rest
  let behind := place.afterBytes 4 rest
  if isTrailing value then throw ⟨.loneSurrogate, behind⟩
  else if isLeading value then
    let trailing ← trailingUnit behind (rest.drop 4)
    return (Char.ofNat (pairValue value trailing), 10)
  else return (Char.ofNat value, 4)

/-- The character of an escape, and the number of characters behind the backslash that write it. -/
def escape (place : Place) : List Char → Except DocumentError (Char × Nat)
  | [] => .error ⟨.endInText, place⟩
  | 'u' :: rest => do
    let (c, count) ← numbered (place.after 'u') rest
    return (c, count + 1)
  | letter :: rest =>
    match escaped? letter with
    | some c => .ok (c, 1)
    | none => .error ⟨.invalidEscape, place.afterBytes 1 (letter :: rest)⟩

/-- The number of characters behind the backslash of an escape whose value is not asked for. -/
def escapeLength (place : Place) : List Char → Except DocumentError Nat
  | [] => .error ⟨.endInText, place⟩
  | 'u' :: rest => do
    let _ ← unit (place.after 'u') rest
    return 5
  | letter :: rest =>
    if (escaped? letter).isSome then .ok 1
    else .error ⟨.invalidEscape, place.afterBytes 1 (letter :: rest)⟩

/-- Whether a character must be escaped in a text. -/
def isControl (c : Char) : Bool := c < ' '

/-- The text up to its closing quote; `read` is what has been read of it, the last character first. -/
def text (read : List Char) (place : Place) : List Char → Except DocumentError (String × Cursor)
  | [] => .error ⟨.endInText, place⟩
  | '"' :: rest => .ok (String.ofList read.reverse, ⟨place.after '"', rest⟩)
  | '\\' :: rest => do
    let (c, count) ← escape (place.after '\\') rest
    text (c :: read) ((place.after '\\').through (rest.take count)) (rest.drop count)
  | c :: rest =>
    if isControl c then .error ⟨.controlCharacter, place.after c⟩
    else text (c :: read) (place.after c) rest
termination_by rest => rest.length
decreasing_by all_goals simp only [List.length_drop, List.length_cons]; omega

/-- The cursor behind the closing quote of a text. -/
def skip (place : Place) : List Char → Except DocumentError Cursor
  | [] => .error ⟨.endInText, place⟩
  | '"' :: rest => .ok ⟨place.after '"', rest⟩
  | '\\' :: rest => do
    let count ← escapeLength (place.after '\\') rest
    skip ((place.after '\\').through (rest.take count)) (rest.drop count)
  | c :: rest =>
    if isControl c then .error ⟨.controlCharacter, place⟩
    else skip (place.after c) rest
termination_by rest => rest.length
decreasing_by all_goals simp only [List.length_drop, List.length_cons]; omega

end Literal

/-- A text whose opening quote has been passed. -/
def Reader.text : Reader String := fun cursor => Literal.text [] cursor.place cursor.rest

/-- Passes a text whose opening quote has been passed. -/
def Reader.skipText : Reader Unit := fun cursor => do
  let cursor ← Literal.skip cursor.place cursor.rest
  return ((), cursor)

end BlockMachine
