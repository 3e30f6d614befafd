/-!
# Places in a document

A place in a text is told by its line, counted from 1, and by the number of bytes before it on that
line.  A `Cursor` is a place together with the characters that follow it.

* `Place.through` — the place behind some characters.
* `Place.afterBytes` — the place behind a number of bytes, which may lie inside a character.
* `Cursor.pass`, `Cursor.skipBlanks` — the cursor further on.
-/

set_option autoImplicit false

namespace BlockMachine

/-- A place in a text. -/
structure Place where
  line : Nat := 1
  /-- The bytes before the place on its line. -/
  column : Nat := 0
  deriving DecidableEq, Repr

namespace Place

/-- The place behind one character. -/
def after (place : Place) (c : Char) : Place :=
  if c = '\n' then ⟨place.line + 1, 0⟩ else ⟨place.line, place.column + c.utf8Size⟩

/-- The place behind some characters. -/
def through (place : Place) (chars : List Char) : Place := chars.foldl after place

/-- The place behind the first `count` bytes of some characters, or behind all of them if they are
fewer. -/
def afterBytes (place : Place) : (count : Nat) → List Char → Place
  | _, [] => place
  | 0, _ => place
  | count, c :: rest =>
    if c.utf8Size ≤ count then (place.after c).afterBytes (count - c.utf8Size) rest
    else ⟨place.line, place.column + count⟩

end Place

/-- A place in a text, and what follows it. -/
structure Cursor where
  place : Place
  rest : List Char
  deriving DecidableEq, Repr

namespace Cursor

/-- The start of a text. -/
def ofText (text : String) : Cursor := ⟨{}, text.toList⟩

/-- The cursor behind a number of characters. -/
def pass (cursor : Cursor) (count : Nat) : Cursor :=
  ⟨cursor.place.through (cursor.rest.take count), cursor.rest.drop count⟩

/-- The blanks between the parts of a document. -/
def isBlank (c : Char) : Bool := c == ' ' || c == '\n' || c == '\t' || c == '\r'

/-- The cursor in front of the next character that is no blank. -/
def skipBlanks (cursor : Cursor) : Cursor :=
  ⟨cursor.place.through (cursor.rest.takeWhile isBlank), cursor.rest.dropWhile isBlank⟩

end Cursor

end BlockMachine
