import BlockMachine.Document.Value
import BlockMachine.Proofs.Document.Numbers

/-!
# Values are written by the grammar

* `Grammar.text_renderChar`, `Grammar.scalarText_renderText` — a character, and a text.
* `Decimal.magnitude_text` — a decimal, in each of the forms it may take.
* `Decimal.shortest_pos` — the shortest decimal of a number that is not zero is not zero.
* `Decimal.number_render` — a double-precision number.
* `Grammar.scalarText_render` — any value without parts.
* `Grammar.object_render` — an object.
-/

set_option autoImplicit false

namespace BlockMachine

open Grammar

/-! ## Texts -/

namespace Grammar

/-- The digits of an escape by number are hexadecimal. -/
theorem hexDigit?_digitChar : ∀ digit < 16, (Literal.hexDigit? (Nat.digitChar digit)).isSome := by
  decide

/-- A character is written as it may stand in a text. -/
theorem text_renderChar (c : Char) {rest : List Char} (hrest : Text rest) :
    Text (Value.renderChar c ++ rest) := by
  unfold Value.renderChar
  split
  case h_8 hquote hbackslash _ _ _ _ _ =>
    by_cases hc : c < ' '
    · have hlt : c.toNat < 32 := hc
      have hhigh := hexDigit?_digitChar (c.toNat / 16) (by omega)
      have hlow := hexDigit?_digitChar (c.toNat % 16) (by omega)
      have hdigits : ∀ d ∈ '0' :: '0' :: Value.twoDigits c.toNat, (Literal.hexDigit? d).isSome := by
        simp only [Value.twoDigits, List.forall_mem_cons, List.not_mem_nil, false_implies,
          implies_true, and_true]
        exact ⟨rfl, rfl, hhigh, hlow⟩
      rw [if_pos hc]
      exact .number rfl hdigits hrest
    · rw [if_neg hc]
      exact .plain hquote hbackslash (Char.not_lt.mp hc) hrest
  all_goals exact .letter (by decide) hrest

/-- A text is written between its quotes. -/
theorem scalarText_renderText (text : String) : ScalarText (Value.renderText text) := by
  have hchars : ∀ chars : List Char, Text (chars.flatMap Value.renderChar) := by
    intro chars
    induction chars with
    | nil => exact .nil
    | cons c chars ih => exact text_renderChar c ih
  exact .text (hchars text.toList)

end Grammar

/-! ## Decimals -/

namespace Decimal

/-- One digit alone may stand in front of the point. -/
theorem whole_singleton {d : Char} (hd : d.isDigit = true) : Whole [d] := by
  by_cases hzero : d = '0'
  · rw [hzero]
    exact .zero
  · refine .digits ⟨List.cons_ne_nil d [], fun c hc => List.mem_singleton.mp hc ▸ hd⟩ ?_
    simpa using hzero

/-- Zeros are digits. -/
theorem isDigit_of_mem_zeros {count : Nat} {c : Char} (hc : c ∈ zeros count) : c.isDigit = true := by
  rw [List.eq_of_mem_replicate hc]
  rfl

/-- The text of an exponent is one. -/
theorem exponent_exponentText (exponent : Int) : Exponent (exponentText exponent) := by
  have hdigits := digits_digitsOf exponent.natAbs
  unfold exponentText
  split
  · exact .digits (.inl rfl) (.inr (.inr rfl)) hdigits
  · exact .digits (.inl rfl) (.inr (.inl rfl)) hdigits

/-- With an exponent, one digit stands in front of the point. -/
theorem magnitude_scientific {digits : List Char} (hdigits : Digits digits)
    (hmany : ∀ digit, digits ≠ [digit]) (order : Int) :
    Magnitude (digits.take 1 ++ '.' :: digits.drop 1 ++ exponentText order) := by
  obtain ⟨d, later, rfl, hd⟩ := hdigits.head
  cases later with
  | nil => exact absurd rfl (hmany d)
  | cons d' later =>
    have hfraction : Digits (d' :: later) :=
      ⟨List.cons_ne_nil _ _, fun c hc => hdigits.all c (List.mem_cons_of_mem _ hc)⟩
    exact .mk (whole_singleton hd) (.digits hfraction) (exponent_exponentText order)

/-- One digit alone needs no point. -/
theorem magnitude_single {digit : Char} (hdigit : digit.isDigit = true) (order : Int) :
    Magnitude (digit :: exponentText order) :=
  .mk (whole_singleton hdigit) .none (exponent_exponentText order)

/-- Below one, zeros stand behind the point. -/
theorem magnitude_below {digits : List Char} (hdigits : Digits digits) (count : Nat) :
    Magnitude ('0' :: '.' :: (zeros count ++ digits)) := by
  have hfraction : Digits (zeros count ++ digits) := by
    refine ⟨List.append_ne_nil_of_right_ne_nil _ hdigits.nonempty, fun c hc => ?_⟩
    exact (List.mem_append.mp hc).elim isDigit_of_mem_zeros (hdigits.all c)
  have hmagnitude := Magnitude.mk .zero (.digits hfraction) .none
  simpa using hmagnitude

/-- Zeros may stand behind the digits of a number that is not zero. -/
theorem whole_append_zeros (number : Nat) {count : Nat} (h : 0 < number ∨ count = 0) :
    Whole (digitsOf number ++ zeros count) := by
  by_cases hzero : count = 0
  · rw [hzero, zeros, List.replicate_zero, List.append_nil]
    exact whole_digitsOf number
  · have hfirst := head_digitsOf (h.resolve_right hzero)
    have hdigits := digits_digitsOf number
    refine .digits ⟨List.append_ne_nil_of_left_ne_nil hdigits.nonempty _, fun c hc => ?_⟩ ?_
    · exact (List.mem_append.mp hc).elim (hdigits.all c) isDigit_of_mem_zeros
    · obtain ⟨d, later, hchars, _⟩ := hdigits.head
      rw [hchars] at hfirst ⊢
      exact hfirst

/-- A whole number has a zero for its fraction. -/
theorem magnitude_whole {digits : List Char} (hwhole : Whole digits) :
    Magnitude (digits ++ ['.', '0']) := by
  have hfraction : Digits ['0'] := ⟨List.cons_ne_nil _ _, by simp⟩
  have hmagnitude := Magnitude.mk hwhole (.digits hfraction) .none
  simpa using hmagnitude

/-- Otherwise the point stands among the digits. -/
theorem magnitude_split {digits : List Char} (hdigits : Digits digits) (hfirst : digits.head? ≠ some '0')
    {count : Nat} (hpos : 0 < count) (hlt : count < digits.length) :
    Magnitude (digits.take count ++ '.' :: digits.drop count) := by
  have hwhole : Whole (digits.take count) := by
    refine .digits ⟨?_, fun c hc => hdigits.all c (List.mem_of_mem_take hc)⟩ ?_
    · simp [hdigits.nonempty, Nat.ne_of_gt hpos]
    · rwa [List.head?_take, if_neg (Nat.ne_of_gt hpos)]
  have hfraction : Digits (digits.drop count) := by
    refine ⟨?_, fun c hc => hdigits.all c (List.mem_of_mem_drop hc)⟩
    simp [hlt]
  have hmagnitude := Magnitude.mk hwhole (.digits hfraction) .none
  simpa using hmagnitude

/-- **A decimal is written as a number**, if it is not zero or has no exponent. -/
theorem magnitude_text (decimal : Decimal) (h : 0 < decimal.digits ∨ decimal.exponent = 0) :
    Magnitude decimal.text := by
  have hdigits := digits_digitsOf decimal.digits
  have hlength := List.length_pos_iff.mpr hdigits.nonempty
  simp only [text]
  split
  · split
    case h_1 digit hone =>
      rw [hone] at hdigits
      exact magnitude_single (hdigits.all digit (List.mem_singleton_self digit)) _
    case h_2 hmany => exact magnitude_scientific hdigits hmany _
  · split
    · rw [List.cons_append, List.cons_append]
      exact magnitude_below hdigits _
    · split
      · exact magnitude_whole (whole_append_zeros _ (by omega))
      · have hpos : 0 < decimal.digits := by omega
        exact magnitude_split hdigits (head_digitsOf hpos) (by omega) (by omega)

/-! ## Double-precision numbers -/

/-- Zero does not round to a number that is not zero. -/
theorem Scaled.accepts_zero {scaled : Scaled} (h : 0 < scaled.low) : scaled.accepts 0 = false := by
  have hle : ¬scaled.low ≤ 0 := Nat.not_le.mpr h
  unfold Scaled.accepts
  split <;> simp [hle]

/-- The point beside a number that is not zero is not zero. -/
theorem Scaled.nearest?_pos {scaled : Scaled} (h : 0 < scaled.low) {point : Nat}
    (hnearest : scaled.nearest? = some point) : 0 < point := by
  have hbelow : ∀ below, scaled.accepts below = true → 0 < below := by
    intro below haccepts
    refine Nat.pos_of_ne_zero fun hzero => ?_
    rw [hzero, accepts_zero h] at haccepts
    exact Bool.noConfusion haccepts
  simp only [Scaled.nearest?] at hnearest
  split at hnearest
  case h_1 haccepts _ =>
    split at hnearest
    · exact Option.some.inj hnearest ▸ hbelow _ haccepts
    · exact Option.some.inj hnearest ▸ Nat.succ_pos _
  case h_2 haccepts _ => exact Option.some.inj hnearest ▸ hbelow _ haccepts
  case h_3 => exact Option.some.inj hnearest ▸ Nat.succ_pos _
  case h_4 => exact nomatch hnearest

/-- The numbers that round to a number that is not zero are not zero. -/
theorem Dyadic.low_scaled_pos {number : Dyadic} (h : 0 < number.significand) (exponent : Int) :
    0 < (number.scaled exponent).low := by
  refine Nat.mul_pos ?_ (Nat.mul_pos (Nat.pow_pos (by decide)) (Nat.pow_pos (by decide)))
  split <;> omega

/-- **The shortest decimal of a number that is not zero is not zero**, or has no exponent. -/
theorem shortest_pos {number : Dyadic} (h : 0 < number.significand) :
    0 < (shortest number).digits ∨ (shortest number).exponent = 0 := by
  unfold shortest
  cases hfound : grids.findSome? fun exponent =>
      (number.scaled exponent).nearest?.map fun digits => (⟨digits, exponent⟩ : Decimal) with
  | none => exact .inr rfl
  | some decimal =>
    obtain ⟨exponent, _, hdecimal⟩ := List.exists_of_findSome?_eq_some hfound
    obtain ⟨digits, hnearest, rfl⟩ := Option.map_eq_some_iff.mp hdecimal
    exact .inl (Scaled.nearest?_pos (Dyadic.low_scaled_pos h exponent) hnearest)

/-- **A double-precision number is written as a number.** -/
theorem number_render (bits : UInt64) : Number (render bits).toList := by
  have hbody : Magnitude (if (Dyadic.ofBits (bits.toNat % signBit)).significand = 0 then ['0', '.', '0']
      else (shortest (Dyadic.ofBits (bits.toNat % signBit))).text) := by
    split
    · exact magnitude_whole .zero
    · exact magnitude_text _ (shortest_pos (by omega))
  rw [render, String.toList_ofList]
  split
  · exact .negative hbody
  · exact .plain hbody

/-- An integer is written as a number. -/
theorem number_renderInteger (value : Int) : Number (Value.renderInteger value) := by
  have hmagnitude : Magnitude (digitsOf value.natAbs ++ ([] ++ [])) :=
    .mk (whole_digitsOf value.natAbs) .none .none
  rw [List.append_nil, List.append_nil] at hmagnitude
  unfold Value.renderInteger
  split
  · exact .negative hmagnitude
  · exact .plain hmagnitude

end Decimal

/-! ## Scalars -/

namespace Value

/-- The values without parts. -/
def IsScalar : Value → Prop
  | list _ | object _ => False
  | _ => True

end Value

namespace Grammar

/-- **A value without parts is written by the grammar.** -/
theorem scalarText_render {value : Value} (h : value.IsScalar) : ScalarText value.render := by
  cases value with
  | null => exact .null
  | boolean value =>
    cases value with
    | false => exact .false
    | true => exact .true
  | integer value => exact .number (Decimal.number_renderInteger value)
  | floating bits => exact .number (Decimal.number_render bits)
  | text characters => exact scalarText_renderText characters
  | list items => exact h.elim
  | object members => exact h.elim

/-! ## Objects -/

/-- The members of an object, each with the characters of its value. -/
def ofValues (members : List (String × Value)) : List (String × List Char) :=
  members.map fun member => (member.1, member.2.render)

/-- A member is written with no blanks. -/
theorem member_render (name : String) (value : List Char) :
    Member (name, value) (Value.renderText name ++ ':' :: value) :=
  Member.mk blank_nil blank_nil blank_nil

/-- Members are written with commas between them. -/
theorem others_render : ∀ (members : List (String × Value)) (first : List Char),
    ∃ later, Value.separated (first :: Value.renderMembers members) = first ++ later ∧
      Others (ofValues members) later
  | [], first => ⟨[], by simp [Value.renderMembers, Value.separated], .none blank_nil⟩
  | (name, value) :: members, first => by
    obtain ⟨later, hlater, hothers⟩ :=
      others_render members (Value.renderText name ++ ':' :: value.render)
    refine ⟨_, ?_, .more blank_nil (member_render name value.render) hothers⟩
    rw [Value.renderMembers, Value.separated, hlater, List.nil_append]
    exact fun h => nomatch h

/-- **An object is written by the rules.** -/
theorem object_render (members : List (String × Value)) :
    Object (ofValues members) (Value.object members).render := by
  cases members with
  | nil => exact .mk (.none blank_nil)
  | cons member members =>
    obtain ⟨later, hlater, hothers⟩ :=
      others_render members (Value.renderText member.1 ++ ':' :: member.2.render)
    have hmembers : Members (ofValues (member :: members)) _ :=
      .some (member_render member.1 member.2.render) hothers
    rw [Value.render, Value.renderMembers, hlater]
    exact .mk hmembers

end Grammar

end BlockMachine
