import BlockMachine.Document.Numeral

/-!
# Values of a document

What a document can say, and how it is written: on one line, with no blanks between its parts.

* `Value` — a value.
* `Value.render` — the text of a value.
-/

set_option autoImplicit false

namespace BlockMachine

/-- A value of a document. -/
inductive Value where
  | null
  | boolean (value : Bool)
  | integer (value : Int)
  /-- A finite number in double precision, by its bits. -/
  | floating (bits : UInt64)
  | text (characters : String)
  | list (items : List Value)
  | object (members : List (String × Value))

namespace Value

/-- A natural number. -/
def natural (value : Nat) : Value := integer value

/-- The value of a number as it is read. -/
def ofNumeral : Numeral → Value
  | .natural value => integer value
  | .negative magnitude => integer (-magnitude)
  | .floating bits => floating bits

/-- Two hexadecimal digits. -/
def twoDigits (number : Nat) : List Char :=
  [Nat.digitChar (number / 16), Nat.digitChar (number % 16)]

/-- A character within a text: quotes, backslashes and control characters are escaped. -/
def renderChar (c : Char) : List Char :=
  match c with
  | '"' => ['\\', '"']
  | '\\' => ['\\', '\\']
  | '\x08' => ['\\', 'b']
  | '\x0c' => ['\\', 'f']
  | '\n' => ['\\', 'n']
  | '\r' => ['\\', 'r']
  | '\t' => ['\\', 't']
  | c => if c < ' ' then ['\\', 'u', '0', '0'] ++ twoDigits c.toNat else [c]

/-- A text between double quotes. -/
def renderText (text : String) : List Char :=
  '"' :: text.toList.flatMap renderChar ++ ['"']

/-- Parts with commas between them. -/
def separated : List (List Char) → List Char
  | [] => []
  | [part] => part
  | part :: rest => part ++ ',' :: separated rest

/-- The digits of an integer, after its sign. -/
def renderInteger (value : Int) : List Char :=
  (if value < 0 then ['-'] else []) ++ Decimal.digitsOf value.natAbs

mutual

/-- The text of a value. -/
def render : Value → List Char
  | null => "null".toList
  | boolean value => (if value then "true" else "false").toList
  | integer value => renderInteger value
  | floating bits => (Decimal.render bits).toList
  | text characters => renderText characters
  | list items => '[' :: separated (renderItems items) ++ [']']
  | object members => '\x7b' :: separated (renderMembers members) ++ ['\x7d']

/-- The texts of some values. -/
def renderItems : List Value → List (List Char)
  | [] => []
  | value :: rest => value.render :: renderItems rest

/-- The texts of some members: a name, a colon and a value. -/
def renderMembers : List (String × Value) → List (List Char)
  | [] => []
  | (name, value) :: rest => (renderText name ++ ':' :: value.render) :: renderMembers rest

end

/-- A value within a line of a log: a text as it stands, all else as it is written in a document. -/
def plainText : Value → String
  | text characters => characters
  | value => String.ofList value.render

end Value

end BlockMachine
