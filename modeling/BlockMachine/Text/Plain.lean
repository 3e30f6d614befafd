/-!
# Plain texts

A text meant for a terminal may hold control characters and control sequences.  The plain text is what
remains without them: line breaks, tabs and all that can be printed.

* `Text.Control` — the control sequence in which a character stands.
* `Text.Control.after` — what a character does to it, and whether the character remains.
* `Text.plain` — the plain text.
* `Text.lines` — the lines of a text.
-/

set_option autoImplicit false

namespace BlockMachine

namespace Text

/-- The control sequence in which a character stands. -/
inductive Control where
  /-- Outside all of them. -/
  | outside
  /-- Behind the escape character. -/
  | escape
  /-- In an escape sequence of more than two characters. -/
  | escapeTail
  /-- In a sequence that an opening bracket introduces. -/
  | parameters
  /-- At the start of a device command. -/
  | device
  /-- Among the parameters of a device command. -/
  | deviceParameters
  /-- Behind the parameters of a device command, in front of its name. -/
  | deviceName
  /-- In a string that is sent to a device or to an application. -/
  | string
  /-- In a command to the system around the terminal. -/
  | command
  deriving DecidableEq, Repr

/-- Whether a control character is white space, which remains. -/
def isBreak (c : Char) : Bool := c == '\t' || c == '\n' || c == '\x0c' || c == '\r'

/-- Whether a character outside all control sequences remains. -/
def isPlain (c : Char) : Bool := isBreak c || decide (' ' ≤ c ∧ c ≠ '\x7f')

/-- Whether one of the bytes of a character is the one that ends a string.  No character of one byte has
it. -/
def endsString (c : Char) : Bool := (String.utf8EncodeChar c).contains 0x9c

namespace Control

/-- The sequence that a character behind the escape character introduces. -/
def introducedBy (c : Char) : Control :=
  if c < '0' then escapeTail
  else match c with
  | 'P' => device
  | 'X' | '^' | '_' => string
  | '[' => parameters
  | ']' => command
  | _ => outside

/-- The part of a device command to which a printed character in front of its string leads.  A second mark
in front of the parameters and a digit behind them are mistakes, which begin the string too. -/
def deviceStep (control : Control) (c : Char) : Control :=
  if c < '0' then deviceName
  else if '@' ≤ c ∨ control = deviceName then string
  else if c < '<' ∨ control = device then deviceParameters
  else string

/-- What a character does within a control sequence.  A character that does not belong to the sequence
is passed over. -/
def within (control : Control) (c : Char) : Control :=
  let isPrinted : Bool := ' ' ≤ c && c < '\x7f'
  match control with
  | outside => outside
  | escape => if isPrinted then introducedBy c else escape
  | escapeTail => if isPrinted && '0' ≤ c then outside else escapeTail
  | parameters => if isPrinted && '@' ≤ c then outside else parameters
  | device | deviceParameters | deviceName =>
    if isPrinted then control.deviceStep c else control
  | string => if endsString c then outside else string
  | command => if c = '\x07' then outside else command

/-- The sequence behind a character, and whether the character remains.  White space within the first
kinds of sequences does. -/
def after (control : Control) (c : Char) : Control × Bool :=
  match c with
  | '\x18' | '\x1a' => (outside, false)
  | '\x1b' => (escape, false)
  | c => match control with
    | outside => (outside, isPlain c)
    | escape | escapeTail | parameters => (control.within c, isBreak c)
    | device | deviceParameters | deviceName | string | command => (control.within c, false)

end Control

/-- How far a text has been made plain. -/
structure Plain where
  control : Control := .outside
  /-- Whether the sequence is suspended: from white space within it on, characters are taken as outside of
  it, up to the next one that does not remain. -/
  suspended : Bool := false
  /-- The characters that remain, the last one first. -/
  remaining : List Char := []

namespace Plain

/-- One character outside of a suspended sequence, which it may end. -/
def suspendedStep (plain : Plain) (c : Char) : Plain :=
  if isPlain c then
    { plain with
      control := if c.toNat < 0x80 then plain.control else .outside
      remaining := c :: plain.remaining }
  else { plain with control := (plain.control.after c).1, suspended := false }

/-- One character. -/
def step (plain : Plain) (c : Char) : Plain :=
  if plain.suspended then plain.suspendedStep c
  else match plain.control.after c with
  | (control, true) => ⟨control, true, c :: plain.remaining⟩
  | (control, false) => ⟨control, false, plain.remaining⟩

end Plain

/-- What remains of a text without control characters and control sequences. -/
def plain (text : List Char) : List Char :=
  (text.foldl Plain.step {}).remaining.reverse

/-- A line whose characters are given from the last one to the first, without the carriage return at its
end. -/
def closeLine : List Char → String
  | '\r' :: reversed => String.ofList reversed.reverse
  | reversed => String.ofList reversed.reverse

/-- The lines of a text, of whose first line some characters have been read, the last one first. -/
def linesFrom (reversed : List Char) : List Char → List String
  | [] => if reversed.isEmpty then [] else [String.ofList reversed.reverse]
  | c :: rest => if c = '\n' then closeLine reversed :: linesFrom [] rest else linesFrom (c :: reversed) rest

/-- The lines of a text, each ended by a line feed or by the end of the text. -/
def lines (text : List Char) : List String := linesFrom [] text

end Text

end BlockMachine
