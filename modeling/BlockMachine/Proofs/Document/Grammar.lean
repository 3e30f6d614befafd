import BlockMachine.Document.Literal
import BlockMachine.Document.Value

/-!
# The grammar of documents

Which characters are a scalar, and which are an object with given members.  Blanks may stand between
any two parts.

* `Grammar.Number`, `Grammar.Text`, `Grammar.ScalarText` — the values without parts.
* `Grammar.Member`, `Grammar.Others`, `Grammar.Object` — objects; a member is a name together with the
  characters of its value.
* `Grammar.Delimited` — what may follow a value within an object.
-/

set_option autoImplicit false

namespace BlockMachine

namespace Grammar

/-- Characters that may stand between two parts. -/
def Blank (chars : List Char) : Prop := ∀ c ∈ chars, Cursor.isBlank c = true

/-! ## Scalars -/

/-- One digit or more. -/
structure Digits (chars : List Char) : Prop where
  nonempty : chars ≠ []
  all : ∀ c ∈ chars, c.isDigit = true

/-- The digits of a number in front of its point: a zero alone, or digits that begin with another one. -/
inductive Whole : List Char → Prop
  | zero : Whole ['0']
  | digits {chars : List Char} (hdigits : Digits chars) (hfirst : chars.head? ≠ some '0') : Whole chars

/-- The fraction of a number, if there is one. -/
inductive Fraction : List Char → Prop
  | none : Fraction []
  | digits {chars : List Char} (hdigits : Digits chars) : Fraction ('.' :: chars)

/-- The exponent of a number, if there is one. -/
inductive Exponent : List Char → Prop
  | none : Exponent []
  | digits {mark : Char} {sign chars : List Char} (hmark : mark = 'e' ∨ mark = 'E')
      (hsign : sign = [] ∨ sign = ['+'] ∨ sign = ['-']) (hdigits : Digits chars) :
      Exponent (mark :: (sign ++ chars))

/-- A number without its sign. -/
inductive Magnitude : List Char → Prop
  | mk {whole fraction exponent : List Char} (hwhole : Whole whole) (hfraction : Fraction fraction)
      (hexponent : Exponent exponent) : Magnitude (whole ++ (fraction ++ exponent))

/-- A number. -/
inductive Number : List Char → Prop
  | plain {chars : List Char} (hmagnitude : Magnitude chars) : Number chars
  | negative {chars : List Char} (hmagnitude : Magnitude chars) : Number ('-' :: chars)

/-- The letters that stand for one character behind a backslash. -/
def letters : List Char := ['"', '\\', '/', 'b', 'f', 'n', 'r', 't']

/-- The characters of a text between its quotes. -/
inductive Text : List Char → Prop
  | nil : Text []
  | plain {c : Char} {rest : List Char} (hquote : c ≠ '"') (hbackslash : c ≠ '\\')
      (hcontrol : ' ' ≤ c) (hrest : Text rest) : Text (c :: rest)
  | letter {c : Char} {rest : List Char} (hletter : c ∈ letters) (hrest : Text rest) :
      Text ('\\' :: c :: rest)
  | number {digits rest : List Char} (hlength : digits.length = 4)
      (hdigits : ∀ c ∈ digits, (Literal.hexDigit? c).isSome) (hrest : Text rest) :
      Text ('\\' :: 'u' :: (digits ++ rest))

/-- A value without parts. -/
inductive ScalarText : List Char → Prop
  | null : ScalarText "null".toList
  | true : ScalarText "true".toList
  | false : ScalarText "false".toList
  | number {chars : List Char} (hnumber : Number chars) : ScalarText chars
  | text {chars : List Char} (htext : Text chars) : ScalarText ('"' :: (chars ++ ['"']))

/-! ## Objects -/

/-- A member of the given name and value. -/
inductive Member : String × List Char → List Char → Prop
  | mk {name : String} {value front between behind : List Char} (hfront : Blank front)
      (hbetween : Blank between) (hbehind : Blank behind) :
      Member (name, value)
        (front ++ (Value.renderText name ++ (between ++ ':' :: (behind ++ value))))

/-- What stands between a member and the closing brace: the members that follow, each behind a comma. -/
inductive Others : List (String × List Char) → List Char → Prop
  | none {front : List Char} (hfront : Blank front) : Others [] front
  | more {front chars later : List Char} {member : String × List Char}
      {members : List (String × List Char)} (hfront : Blank front) (hmember : Member member chars)
      (hlater : Others members later) : Others (member :: members) (front ++ ',' :: (chars ++ later))

/-- What stands between the braces of an object with the given members. -/
inductive Members : List (String × List Char) → List Char → Prop
  | none {front : List Char} (hfront : Blank front) : Members [] front
  | some {chars later : List Char} {member : String × List Char}
      {members : List (String × List Char)} (hmember : Member member chars)
      (hlater : Others members later) : Members (member :: members) (chars ++ later)

/-- An object with the given members. -/
inductive Object (members : List (String × List Char)) : List Char → Prop
  | mk {chars : List Char} (hmembers : Members members chars) :
      Object members ('\x7b' :: (chars ++ ['\x7d']))

/-- What may follow a value within an object. -/
def Delimited (rest : List Char) : Prop :=
  ∃ c later, rest = c :: later ∧ (Cursor.isBlank c = true ∨ c = ',' ∨ c = '\x7d')

theorem blank_nil : Blank [] := fun _ h => nomatch h

theorem blank_singleton {c : Char} (hc : Cursor.isBlank c = true) : Blank [c] := fun _ h =>
  List.mem_singleton.mp h ▸ hc

/-- A comma or the closing brace may follow, with blanks in front of it. -/
theorem delimited_of_blank {front : List Char} (hfront : Blank front) {c : Char}
    (hc : c = ',' ∨ c = '\x7d') (later : List Char) : Delimited (front ++ c :: later) := by
  cases front with
  | nil => exact ⟨c, later, rfl, .inr hc⟩
  | cons b front => exact ⟨b, front ++ c :: later, rfl, .inl (hfront b List.mem_cons_self)⟩

/-- What stands between a member and the end of the object may follow the member's value. -/
theorem Others.delimited {members : List (String × List Char)} {chars : List Char}
    (hothers : Others members chars) (rest : List Char) : Delimited (chars ++ '\x7d' :: rest) := by
  cases hothers with
  | none hfront => exact delimited_of_blank hfront (.inr rfl) rest
  | more hfront _ _ =>
    rw [List.append_assoc]
    exact delimited_of_blank hfront (.inl rfl) _

end Grammar

end BlockMachine
