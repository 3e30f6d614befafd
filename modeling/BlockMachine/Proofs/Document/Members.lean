import BlockMachine.Config.Fields
import BlockMachine.Proofs.Document.Numbers
import BlockMachine.Proofs.Document.Texts

/-!
# Members are read one after the other

* `Reader.takes_skipValue`, `Reader.takes_otherMember` — a scalar is passed over, and so is the member of a
  name nobody asks for.
* `Reader.takes_object` — what is known of the members read so far is carried through a whole object.
* `Reader.takes_parts` — the object with its braces.
-/

set_option autoImplicit false

namespace BlockMachine

open Grammar

namespace Reader

variable {α β : Type} {chars front rest : List Char} {value : α}

/-- The cursor is looked at. -/
theorem Takes.of_get {reader : Cursor → Reader α}
    (h : ∀ place, (reader ⟨place, chars ++ rest⟩).Takes chars rest value) :
    (get >>= reader).Takes chars rest value := fun place => h place place

/-! ## Scalars that are passed over -/

/-- A number begins with its sign or with a digit. -/
theorem head_number (hnumber : Number chars) :
    ∃ d later, chars = d :: later ∧ startsNumber d = true ∧ Cursor.isBlank d = false := by
  cases hnumber with
  | plain hmagnitude =>
    obtain ⟨d, later, rfl, hd⟩ := hmagnitude.head
    exact ⟨d, later, rfl, by simp [startsNumber, hd], isBlank_of_isDigit hd⟩
  | negative _ => exact ⟨'-', _, rfl, rfl, rfl⟩

/-- A scalar is passed over at once. -/
theorem takes_skipHead (hscalar : ScalarText chars) (hfront : Blank front) (hrest : Delimited rest) :
    skipHead.Takes (front ++ chars) rest none := by
  cases hscalar with
  | null => exact Takes.of_next hfront rfl rfl (takes_word "null".toList).map
  | true => exact Takes.of_next hfront rfl rfl (takes_word "true".toList).map
  | false => exact Takes.of_next hfront rfl rfl (takes_word "false".toList).map
  | number hnumber =>
    have hskip := takes_skipNumber hnumber hrest
    obtain ⟨d, later, rfl, hstarts, hblank⟩ := head_number hnumber
    refine Takes.of_next hfront hblank rfl ?_
    show (if startsNumber d = true then _ else _ : Reader (Option Bracket)).Takes _ _ _
    rw [if_pos hstarts]
    exact hskip.map
  | text htext => exact Takes.of_next hfront rfl rfl (Takes.of_take (takes_skipText htext).map)

/-- **A scalar is passed over.** -/
theorem takes_skipValue (hscalar : ScalarText chars) (hfront : Blank front) (hrest : Delimited rest) :
    skipValue.Takes (front ++ chars) rest () := by
  refine Takes.of_get fun place => ?_
  exact (takes_skipHead hscalar hfront hrest).bind_nil takes_pure

/-- A value behind the colon of its member. -/
theorem takes_named {reader : Reader α} {between : List Char} (hbetween : Blank between)
    (h : reader.Takes chars rest value) :
    (do colon; reader : Reader α).Takes (between ++ ':' :: chars) rest value := by
  have hcolon : colon.Takes (between ++ [':']) (chars ++ rest) () := takes_colon hbetween
  have htaken : (do colon; reader : Reader α).Takes (between ++ [':'] ++ chars) rest value :=
    hcolon.bind h
  rwa [List.append_assoc, List.singleton_append] at htaken

/-- The member of a name nobody asks for is passed over. -/
theorem takes_otherMember {between : List Char} (hbetween : Blank between) (hfront : Blank front)
    (hscalar : ScalarText chars) (hrest : Delimited rest) :
    otherMember.Takes (between ++ ':' :: (front ++ chars)) rest () :=
  takes_named hbetween (takes_skipValue hscalar hfront hrest)

/-! ## Objects -/

variable {member : β → String → Reader β} {known : List (String × List Char) → β}
  {all read later : List (String × List Char)} {name : String} {turns : Nat}

/-- What is known behind each member is what the members up to it tell. -/
def Learns (member : β → String → Reader β) (known : List (String × List Char) → β)
    (all : List (String × List Char)) : Prop :=
  ∀ (read later : List (String × List Char)) (name : String) (value : List Char),
    all = read ++ (name, value) :: later →
    ∀ between behind rest : List Char, Blank between → Blank behind → Delimited rest →
      (member (known read) name).Takes (between ++ ':' :: (behind ++ value)) rest
        (known (read ++ [(name, value)]))

/-- One turn reads a member; `opening` is what stands in front of its name. -/
theorem takes_turn {isFirst : Bool} {opening others between behind value : List Char}
    (hlearns : Learns member known all) (hall : all = read ++ (name, value) :: later)
    (hbetween : Blank between) (hbehind : Blank behind) (hothers : Others later others)
    (hmore : ∀ rest : List Char, rest.head? = some '"' →
      (moreMembers isFirst).Takes opening rest true)
    (hlater : (members member turns false (known (read ++ [(name, value)]))).Takes others
      ('\x7d' :: rest) (known all)) :
    (members member (turns + 1) isFirst (known read)).Takes
      (opening ++ (Value.renderText name ++ ((between ++ ':' :: (behind ++ value)) ++ others)))
      ('\x7d' :: rest) (known all) := by
  have hread := hlearns read later name value hall between behind _ hbetween hbehind
    (hothers.delimited rest)
  have hname : text.Takes (name.toList.flatMap Value.renderChar ++ ['"'])
      ((between ++ ':' :: (behind ++ value)) ++ others ++ '\x7d' :: rest) name := takes_text name
  refine (hmore _ rfl).bind (Takes.of_take ?_)
  exact hname.bind (hread.bind hlater)

/-- The members behind another one.  Each takes a turn, and a comma at least. -/
theorem takes_others (hlearns : Learns member known all) :
    ∀ (later read : List (String × List Char)) (others : List Char) (turns : Nat),
      all = read ++ later → Others later others → others.length < turns →
      (members member turns false (known read)).Takes others ('\x7d' :: rest) (known all)
  | _, _, _, 0, _, _, hturns => absurd hturns (Nat.not_lt_zero _)
  | [], read, _, turns + 1, hall, .none hfront, _ => by
    rw [hall, List.append_nil]
    exact (takes_noMember false hfront rfl).bind_nil takes_pure
  | (name, value) :: later, read, _, turns + 1, hall, .more hfront (.mk hopening hbetween hbehind)
      hothers, hturns => by
    have hlater := takes_others hlearns later (read ++ [(name, value)]) _ turns
      (by rw [hall, List.append_assoc, List.singleton_append]) hothers
      (by simp only [List.length_append, List.length_cons] at hturns; omega)
    have hturn := takes_turn hlearns hall hbetween hbehind hothers
      (fun _ => takes_nextMember hfront hopening) hlater
    simpa only [List.append_assoc, List.cons_append] using hturn

/-- All members of an object, with more turns than characters. -/
theorem takes_members (hlearns : Learns member known all) (hmembers : Members all chars)
    (hturns : chars.length < turns) :
    (members member turns true (known [])).Takes chars ('\x7d' :: rest) (known all) := by
  cases turns with
  | zero => exact absurd hturns (Nat.not_lt_zero _)
  | succ turns =>
    cases hmembers with
    | none hfront => exact (takes_noMember true hfront rfl).bind_nil takes_pure
    | @some _ others first later hmember hothers =>
      cases hmember with
      | @mk name value _ _ _ hopening hbetween hbehind =>
        have hall : (name, value) :: later = [] ++ (name, value) :: later := rfl
        have hlength : others.length < turns := by
          simp only [List.length_append, List.length_cons] at hturns
          omega
        have hlater : (members member turns false (known [(name, value)])).Takes others
            ('\x7d' :: rest) _ := takes_others hlearns later _ others turns hall hothers hlength
        have hturn := takes_turn hlearns hall hbetween hbehind hothers
          (fun _ => takes_firstMember hopening) hlater
        simpa only [List.append_assoc, List.cons_append] using hturn

/-- **What is known is carried through a whole object.** -/
theorem takes_object (rest : List Char) (hlearns : Learns member known all)
    (hmembers : Members all chars) :
    (object member (known [])).Takes chars ('\x7d' :: rest) (known all) :=
  Takes.of_get fun _ => takes_members hlearns hmembers (by simp only [List.length_append]; omega)

/-- **An object with its braces is read as its members are.** -/
theorem takes_parts {expected : Expected} {ofList ofObject : Reader α} (hfront : Blank front)
    (hobject : ofObject.Takes chars ('\x7d' :: rest) value) :
    (parts expected ofList ofObject).Takes (front ++ '\x7b' :: (chars ++ ['\x7d'])) rest value := by
  refine Takes.of_next hfront rfl rfl (Takes.of_take ?_)
  exact hobject.bind (takes_closeObject blank_nil).map

end Reader

end BlockMachine
