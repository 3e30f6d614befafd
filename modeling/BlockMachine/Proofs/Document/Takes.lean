import BlockMachine.Document.Reader
import BlockMachine.Proofs.Document.Grammar

/-!
# What a reader takes

A reader takes some characters for a value if, wherever they stand, it gives the value and leaves the
cursor behind them.

* `Reader.Takes` — this property, for the characters that follow.
* `Reader.Takes.bind` — readers one after the other take characters one after the other.
* `Reader.Takes.of_peek`, `Reader.Takes.of_take`, `Reader.Takes.of_next`, `Reader.Takes.of_sight` — the
  steps a reader makes.
* `Reader.takes_word`, `Reader.takes_digits` — words and digits.
* `Reader.takes_colon`, `Reader.takes_firstMember`, `Reader.takes_nextMember`, `Reader.takes_noMember` — what
  is read between the members of an object.
* `Reader.Takes.readText` — a whole text.
-/

set_option autoImplicit false

namespace BlockMachine

open Grammar

namespace Reader

variable {α β : Type} {chars later rest front : List Char} {c : Char} {value : α}

/-- With `rest` behind them, a reader takes some characters for a value. -/
def Takes (reader : Reader α) (chars rest : List Char) (value : α) : Prop :=
  ∀ place, ∃ place', reader ⟨place, chars ++ rest⟩ = .ok (value, ⟨place', rest⟩)

/-- Nothing is taken for a value that is there already. -/
theorem takes_pure : Takes (pure value : Reader α) [] rest value := fun place => ⟨place, rfl⟩

/-- **Readers one after the other take characters one after the other.** -/
theorem Takes.bind {reader : Reader α} {next : α → Reader β} {result : β}
    (hfirst : reader.Takes chars (later ++ rest) value) (hnext : (next value).Takes later rest result) :
    (reader >>= next).Takes (chars ++ later) rest result := by
  intro place
  obtain ⟨between, hread⟩ := hfirst place
  obtain ⟨behind, hresult⟩ := hnext between
  refine ⟨behind, ?_⟩
  rw [List.append_assoc]
  show (reader ⟨place, _⟩ >>= fun read => next read.1 read.2) = _
  rw [hread]
  exact hresult

/-- A reader behind which nothing more is taken. -/
theorem Takes.bind_nil {reader : Reader α} {next : α → Reader β} {result : β}
    (hfirst : reader.Takes chars rest value) (hnext : (next value).Takes [] rest result) :
    (reader >>= next).Takes chars rest result := by
  have hresult := @Takes.bind α β chars [] rest value reader next result hfirst hnext
  rwa [List.append_nil] at hresult

/-- What is made of the value of the last reader. -/
theorem Takes.map {reader : Reader α} {result : α → β} (h : reader.Takes chars rest value) :
    (do return result (← reader) : Reader β).Takes chars rest (result value) :=
  h.bind_nil takes_pure

/-! ## Steps -/

/-- The next character is looked at and not passed. -/
theorem Takes.of_peek {reader : Option Char → Reader α}
    (h : (reader (chars ++ rest).head?).Takes chars rest value) :
    (peek >>= reader).Takes chars rest value := h

/-- The next character is passed. -/
theorem Takes.of_take {reader : Unit → Reader α} (h : (reader ()).Takes chars rest value) :
    (take >>= reader).Takes (c :: chars) rest value := fun place => h (place.through [c])

theorem takes_take : take.Takes [c] rest () := fun place => ⟨place.through [c], rfl⟩

/-- Blanks are passed up to the next character. -/
theorem takes_blanks (hfront : Blank front) (hc : Cursor.isBlank c = false)
    (hrest : rest.head? = some c) : next.Takes front rest (some c) := by
  intro place
  have hdrop : (front ++ rest).dropWhile Cursor.isBlank = rest := by
    obtain ⟨later, rfl⟩ := List.head?_eq_some_iff.mp hrest
    rw [List.dropWhile_append_of_pos hfront, List.dropWhile_cons_of_neg (by simp [hc])]
  refine ⟨place.through ((front ++ rest).takeWhile Cursor.isBlank), ?_⟩
  show Except.ok _ = Except.ok _
  simp only [Cursor.skipBlanks, hdrop, hrest]

/-- **Behind blanks, the next character is looked at and not passed.** -/
theorem Takes.of_next {reader : Option Char → Reader α} (hfront : Blank front)
    (hc : Cursor.isBlank c = false) (hnext : (chars ++ rest).head? = some c)
    (h : (reader (some c)).Takes chars rest value) :
    (next >>= reader).Takes (front ++ chars) rest value :=
  .bind (takes_blanks hfront hc hnext) h

/-- Behind blanks, the next character decides on a value and is not passed. -/
theorem Takes.of_sight {reader : Option Char → Reader α} (hfront : Blank front)
    (hc : Cursor.isBlank c = false) (hnext : rest.head? = some c)
    (h : (reader (some c)).Takes [] rest value) : (next >>= reader).Takes front rest value :=
  (takes_blanks hfront hc hnext).bind_nil h

/-! ## Words and digits -/

/-- A word is taken for itself. -/
theorem takes_word : ∀ letters : List Char, (word letters).Takes letters rest ()
  | [] => takes_pure
  | letter :: letters => by
    refine Takes.of_peek ?_
    show (if letter = letter then _ else _ : Reader Unit).Takes _ _ _
    rw [if_pos rfl]
    exact Takes.of_take (takes_word letters)

/-- The number that a digit stands for. -/
def digitValue (digit : Char) : Nat := digit.toNat - '0'.toNat

/-- All digits that come next are taken. -/
theorem takes_digits (hchars : ∀ c ∈ chars, c.isDigit = true)
    (hrest : ∀ c, rest.head? = some c → c.isDigit = false) :
    digits.Takes chars rest (chars.map digitValue) := by
  intro place
  have htake : (chars ++ rest).takeWhile Char.isDigit = chars := by
    rw [List.takeWhile_append_of_pos hchars]
    cases rest with
    | nil => exact List.append_nil _
    | cons c rest => rw [List.takeWhile_cons_of_neg (by simp [hrest c rfl]), List.append_nil]
  refine ⟨place.through chars, ?_⟩
  show Except.ok _ = Except.ok _
  simp only [Cursor.pass, htake, List.take_left, List.drop_left]
  rfl

/-! ## Between values -/

/-- The colon behind a name. -/
theorem takes_colon (hfront : Blank front) : colon.Takes (front ++ [':']) rest () :=
  Takes.of_next hfront rfl rfl takes_take

/-- The closing brace. -/
theorem takes_closeObject (hfront : Blank front) : closeObject.Takes (front ++ ['\x7d']) rest () :=
  Takes.of_next hfront rfl rfl takes_take

/-- The first member is next. -/
theorem takes_firstMember (hfront : Blank front) (hrest : rest.head? = some '"') :
    (moreMembers true).Takes front rest true :=
  Takes.of_sight hfront rfl hrest takes_pure

/-- Behind a comma, another member is next. -/
theorem takes_nextMember (hfront : Blank front) (hlater : Blank later)
    (hrest : rest.head? = some '"') :
    (moreMembers false).Takes (front ++ ',' :: later) rest true :=
  Takes.of_next hfront rfl rfl (Takes.of_take (Takes.of_sight hlater rfl hrest takes_pure))

/-- There is no other member. -/
theorem takes_noMember (isFirst : Bool) (hfront : Blank front) (hrest : rest.head? = some '\x7d') :
    (moreMembers isFirst).Takes front rest false :=
  Takes.of_sight hfront rfl hrest takes_pure

/-! ## Whole texts -/

/-- At the end there are only blanks. -/
theorem finish_blanks (hfront : Blank front) (place : Place) :
    ∃ place', finish ⟨place, front⟩ = .ok ((), ⟨place', []⟩) := by
  have hdrop : (front ++ []).dropWhile Cursor.isBlank = [] := List.dropWhile_append_of_pos hfront
  rw [List.append_nil] at hdrop
  refine ⟨place.through (front.takeWhile Cursor.isBlank), ?_⟩
  show (if ((front.dropWhile Cursor.isBlank).head?).isSome then _ else _ : Reader Unit) ⟨_, _⟩ = _
  simp only [hdrop]
  rfl

/-- **A whole text is read as its characters are taken**, with blanks behind them. -/
theorem Takes.readText {reader : Reader α} {text : String} (htext : text.toList = chars ++ front)
    (hfront : Blank front) (h : reader.Takes chars front value) :
    reader.readText text = .ok value := by
  obtain ⟨place, hread⟩ := h {}
  obtain ⟨_, hfinish⟩ := finish_blanks hfront place
  rw [← htext] at hread
  show (reader (.ofText text) >>= fun read => finish read.2 >>= fun _ => pure read.1) = _
  rw [Cursor.ofText, hread]
  show (finish ⟨place, front⟩ >>= fun _ => pure value) = _
  rw [hfinish]
  rfl

end Reader

end BlockMachine
