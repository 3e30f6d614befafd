import BlockMachine.Proofs.Document.Takes

/-!
# Numbers are read as they are written

* `Decimal.whole_digitsOf`, `Numeral.ofDigits_digitsOf` — the digits of a natural number.
* `Numeral.absorb_ofDigits` — digits that write a word make up a significand, and none are left over.
* `Reader.takes_number` — a word is read as it is written.
* `Reader.takes_skipNumber` — a number that is passed over.
-/

set_option autoImplicit false

namespace BlockMachine

open Grammar

/-! ## What stands behind a number -/

/-- What may follow a value begins with none of the other characters. -/
theorem Grammar.Delimited.head_ne {rest : List Char} {c : Char} (h : Delimited rest)
    (hc : ¬(Cursor.isBlank c = true ∨ c = ',' ∨ c = '\x7d')) : rest.head? ≠ some c := by
  obtain ⟨d, later, rfl, hd⟩ := h
  intro heq
  cases heq
  exact hc hd

/-- What may follow a value does not begin with a digit. -/
theorem Grammar.Delimited.head_not_digit {rest : List Char} (h : Delimited rest) (c : Char)
    (hc : rest.head? = some c) : c.isDigit = false := by
  obtain ⟨d, later, rfl, hd⟩ := h
  cases hc
  simp only [Cursor.isBlank, Bool.or_eq_true, beq_iff_eq] at hd
  rcases hd with ((((rfl | rfl) | rfl) | rfl) | rfl | rfl) <;> rfl

/-- Digits begin with a digit. -/
theorem Grammar.Digits.head {chars : List Char} (h : Digits chars) :
    ∃ d later, chars = d :: later ∧ d.isDigit = true := by
  cases chars with
  | nil => exact absurd rfl h.nonempty
  | cons d later => exact ⟨d, later, rfl, h.all d List.mem_cons_self⟩

/-- What stands in front of the point of a number begins with a digit. -/
theorem Grammar.Whole.head {chars : List Char} (h : Whole chars) :
    ∃ d later, chars = d :: later ∧ d.isDigit = true := by
  cases h with
  | zero => exact ⟨'0', [], rfl, rfl⟩
  | digits hdigits _ => exact hdigits.head

/-- A number without its sign begins with a digit. -/
theorem Grammar.Magnitude.head {chars : List Char} (h : Magnitude chars) :
    ∃ d later, chars = d :: later ∧ d.isDigit = true := by
  cases h with
  | mk hwhole _ _ =>
    obtain ⟨d, later, rfl, hd⟩ := hwhole.head
    exact ⟨d, _, rfl, hd⟩

/-- A digit is no other character. -/
theorem ne_of_isDigit {c d : Char} (hd : d.isDigit = true) (hc : c.isDigit = false) : d ≠ c := by
  rintro rfl
  exact Bool.noConfusion (hd.symm.trans hc)

/-- A digit is no blank. -/
theorem isBlank_of_isDigit {d : Char} (hd : d.isDigit = true) : Cursor.isBlank d = false := by
  simp only [Cursor.isBlank, Bool.or_eq_false_iff, beq_eq_false_iff_ne]
  exact ⟨⟨⟨ne_of_isDigit hd rfl, ne_of_isDigit hd rfl⟩, ne_of_isDigit hd rfl⟩,
    ne_of_isDigit hd rfl⟩

/-! ## The digits of a natural number -/

namespace Decimal

/-- A number is written with one digit or more. -/
theorem digits_digitsOf (number : Nat) : Digits (digitsOf number) :=
  ⟨Nat.toDigits_ne_nil, fun _ hc => Nat.isDigit_of_mem_toDigits (by decide) (by decide) hc⟩

/-- A number that is not zero does not begin with a zero. -/
theorem head_digitsOf {number : Nat} (hpos : 0 < number) : (digitsOf number).head? ≠ some '0' := by
  induction number using Nat.strongRecOn with
  | _ number ih =>
    rw [digitsOf, Nat.toDigits_eq_if (by decide)]
    split
    · simp [Nat.digitChar_eq_zero]
      omega
    · obtain ⟨d, later, hdigits, _⟩ := (digits_digitsOf (number / 10)).head
      have hfirst := ih (number / 10) (by omega) (by omega)
      rw [hdigits] at hfirst
      rw [digitsOf] at hdigits
      rw [hdigits]
      exact hfirst

/-- **A number is written as a zero alone, or without zeros in front.** -/
theorem whole_digitsOf (number : Nat) : Whole (digitsOf number) := by
  cases number with
  | zero => exact .zero
  | succ number => exact .digits (digits_digitsOf _) (head_digitsOf (Nat.succ_pos number))

end Decimal

namespace Numeral

/-- **The digits of a number write this number.** -/
theorem ofDigits_digitsOf (number : Nat) :
    ofDigits ((Decimal.digitsOf number).map Reader.digitValue) = number := by
  have hfold := Nat.ofDigitChars_toDigits (b := 10) (n := number) (by decide) (by decide)
  rw [Nat.ofDigitChars_eq_foldl] at hfold
  rw [ofDigits, List.foldl_map]
  exact hfold

/-- Further digits do not make a number smaller. -/
theorem le_foldl (digits : List Nat) (value : Nat) :
    value ≤ digits.foldl (fun value digit => 10 * value + digit) value := by
  induction digits generalizing value with
  | nil => exact Nat.le_refl value
  | cons digit digits ih => exact Nat.le_trans (by omega) (ih (10 * value + digit))

/-- Digits are taken into a significand as long as what they write is a word. -/
theorem absorb_foldl (digits : List Nat) (significand : Nat)
    (h : digits.foldl (fun value digit => 10 * value + digit) significand < Word.limit) :
    absorb significand digits =
      (digits.foldl (fun value digit => 10 * value + digit) significand, []) := by
  induction digits generalizing significand with
  | nil => rfl
  | cons digit digits ih =>
    have hstep : 10 * significand + digit < Word.limit :=
      Nat.lt_of_le_of_lt (le_foldl digits _) h
    rw [absorb, if_pos hstep, ih _ h]
    rfl

/-- **Digits that write a word make up a significand.** -/
theorem absorb_ofDigits {digits : List Nat} (h : ofDigits digits < Word.limit) :
    absorb 0 digits = (ofDigits digits, []) := absorb_foldl digits 0 h

end Numeral

namespace Reader

variable {chars rest : List Char}

/-! ## With its value -/

/-- The digits in front of the point of a number. -/
theorem takes_wholeDigits (hwhole : Whole chars)
    (hrest : ∀ c, rest.head? = some c → c.isDigit = false) :
    wholeDigits.Takes chars rest (chars.map digitValue) := by
  refine Takes.of_peek ?_
  cases hwhole with
  | zero =>
    refine Takes.of_take (Takes.of_peek ?_)
    have hnone : ¬Option.any Char.isDigit rest.head? = true := by
      cases hhead : rest.head? with
      | none => simp
      | some c => simp [hrest c hhead]
    rw [List.nil_append, if_neg hnone]
    exact takes_pure
  | digits hdigits hfirst =>
    obtain ⟨d, later, rfl, hd⟩ := hdigits.head
    have hzero : d ≠ '0' := fun heq => hfirst (by rw [heq]; rfl)
    have htaken := takes_digits hdigits.all hrest
    simpa [hzero, hd] using htaken

/-- A magnitude without fraction and exponent. -/
theorem takes_magnitude {word : Nat} (hword : word < Word.limit) (hrest : Delimited rest) :
    (magnitude false).Takes (Decimal.digitsOf word) rest (.natural word) := by
  have hdigits := takes_wholeDigits (Decimal.whole_digitsOf word) hrest.head_not_digit
  have habsorb := Numeral.absorb_ofDigits ((Numeral.ofDigits_digitsOf word).symm ▸ hword)
  rw [Numeral.ofDigits_digitsOf] at habsorb
  refine hdigits.bind_nil ?_
  rw [habsorb]
  refine Takes.of_peek ?_
  have hpoint := hrest.head_ne (c := '.') (by decide)
  have he := hrest.head_ne (c := 'e') (by decide)
  have hE := hrest.head_ne (c := 'E') (by decide)
  rw [List.nil_append]
  split
  case h_4 => exact takes_pure
  all_goals contradiction

/-- **A word is read as it is written.** -/
theorem takes_number {word : Nat} (hword : word < Word.limit) (hrest : Delimited rest) :
    number.Takes (Decimal.digitsOf word) rest (.natural word) := by
  obtain ⟨d, later, hdigits, hd⟩ := (Decimal.digits_digitsOf word).head
  have hsign : ¬(Decimal.digitsOf word ++ rest).head? = some '-' := by
    simp [hdigits, ne_of_isDigit hd (c := '-') rfl]
  refine Takes.of_peek ?_
  rw [if_neg hsign]
  exact takes_magnitude hword hrest

/-! ## Without its value -/

/-- Passes what stands behind the whole digits of a number. -/
def skipFraction : Reader Unit := do
  if (← peek) = some '.' then
    take
    skipDigits
  skipExponent

/-- Passes a number whose sign has been passed. -/
def skipMagnitude : Reader Unit := do
  if (← peek) = some '0' then
    take
    if (← peek).any Char.isDigit then failNext .invalidNumber
  else skipDigits
  skipFraction

/-- A number is passed over sign first. -/
theorem skipNumber_eq : skipNumber = (do
    if (← peek) = some '-' then take
    skipMagnitude) := rfl

/-- One digit or more are passed over. -/
theorem takes_skipDigits (hdigits : Digits chars)
    (hrest : ∀ c, rest.head? = some c → c.isDigit = false) : skipDigits.Takes chars rest () := by
  obtain ⟨d, later, hchars, hd⟩ := hdigits.head
  have hany : (chars ++ rest).head?.any Char.isDigit = true := by rw [hchars]; exact hd
  refine Takes.of_peek ?_
  rw [if_pos hany]
  exact (takes_digits hdigits.all hrest).map

/-- Behind whole digits, neither an exponent nor what follows the number goes on with a digit or a
point. -/
theorem head_exponent (hexponent : Exponent chars) (hrest : Delimited rest) (c : Char)
    (hc : (chars ++ rest).head? = some c) : c.isDigit = false ∧ c ≠ '.' := by
  cases hexponent with
  | none => exact ⟨hrest.head_not_digit c hc, fun heq => hrest.head_ne (by decide) (heq ▸ hc)⟩
  | digits hmark _ _ =>
    cases hc
    rcases hmark with rfl | rfl <;> decide

/-- An exponent is passed over, if there is one. -/
theorem takes_skipExponent (hexponent : Exponent chars) (hrest : Delimited rest) :
    skipExponent.Takes chars rest () := by
  refine Takes.of_peek ?_
  cases hexponent with
  | none =>
    have hmark : ¬(([] ++ rest).head? = some 'e' ∨ ([] ++ rest).head? = some 'E') := fun h =>
      h.elim (hrest.head_ne (by decide)) (hrest.head_ne (by decide))
    rw [if_neg hmark]
    exact takes_pure
  | @digits mark sign digits hmark hsign hdigits =>
    have hhead : (mark :: (sign ++ digits) ++ rest).head? = some 'e' ∨
        (mark :: (sign ++ digits) ++ rest).head? = some 'E' := by
      rcases hmark with rfl | rfl
      · exact .inl rfl
      · exact .inr rfl
    have htaken := takes_skipDigits hdigits hrest.head_not_digit
    rw [if_pos hhead]
    refine Takes.of_take (Takes.of_peek ?_)
    rcases hsign with rfl | rfl | rfl
    · obtain ⟨d, later, rfl, hd⟩ := hdigits.head
      have hplain : ¬(some d = some '+' ∨ some d = some '-') := by
        simp [ne_of_isDigit hd (c := '+') rfl, ne_of_isDigit hd (c := '-') rfl]
      exact (if_neg hplain).symm ▸ htaken
    · exact Takes.of_take htaken
    · exact Takes.of_take htaken

/-- What stands behind the whole digits is passed over. -/
theorem takes_skipFraction {fraction exponent : List Char} (hfraction : Fraction fraction)
    (hexponent : Exponent exponent) (hrest : Delimited rest) :
    skipFraction.Takes (fraction ++ exponent) rest () := by
  have htaken := takes_skipExponent hexponent hrest
  have hhead := head_exponent hexponent hrest
  refine Takes.of_peek ?_
  cases hfraction with
  | none =>
    have hpoint : ¬([] ++ exponent ++ rest).head? = some '.' := fun h => (hhead '.' h).2 rfl
    rw [if_neg hpoint]
    exact htaken
  | digits hdigits =>
    have hskip := takes_skipDigits hdigits fun c hc => (hhead c hc).1
    exact Takes.of_take (hskip.bind htaken)

/-- A number whose sign has been passed is passed over. -/
theorem takes_skipMagnitude (hmagnitude : Magnitude chars) (hrest : Delimited rest) :
    skipMagnitude.Takes chars rest () := by
  cases hmagnitude with
  | @mk whole fraction exponent hwhole hfraction hexponent =>
    have htaken := takes_skipFraction hfraction hexponent hrest
    have hhead : ∀ c, (fraction ++ exponent ++ rest).head? = some c → c.isDigit = false := by
      intro c hc
      cases hfraction with
      | none => exact (head_exponent hexponent hrest c hc).1
      | digits _ => cases hc; rfl
    refine Takes.of_peek ?_
    cases hwhole with
    | zero =>
      have hnone : ¬(fraction ++ exponent ++ rest).head?.any Char.isDigit = true := by
        cases h : (fraction ++ exponent ++ rest).head? with
        | none => simp
        | some c => simp [hhead c h]
      refine Takes.of_take (Takes.of_peek ?_)
      show (if (fraction ++ exponent ++ rest).head?.any Char.isDigit = true then _ else _ :
        Reader Unit).Takes _ _ _
      rw [if_neg hnone]
      exact htaken
    | digits hdigits hfirst =>
      have hskip := takes_skipDigits hdigits hhead
      obtain ⟨d, later, rfl, hd⟩ := hdigits.head
      have hzero : ¬(d :: later ++ (fraction ++ exponent) ++ rest).head? = some '0' := by
        rintro ⟨⟩
        exact hfirst rfl
      rw [if_neg hzero]
      exact hskip.bind htaken

/-- **A number is passed over.** -/
theorem takes_skipNumber (hnumber : Number chars) (hrest : Delimited rest) :
    skipNumber.Takes chars rest () := by
  rw [skipNumber_eq]
  refine Takes.of_peek ?_
  cases hnumber with
  | plain hmagnitude =>
    have htaken := takes_skipMagnitude hmagnitude hrest
    obtain ⟨d, later, rfl, hd⟩ := hmagnitude.head
    have hplain : ¬(d :: later ++ rest).head? = some '-' := by
      simp [ne_of_isDigit hd (c := '-') rfl]
    rw [if_neg hplain]
    exact htaken
  | negative hmagnitude => exact Takes.of_take (takes_skipMagnitude hmagnitude hrest)

end Reader

end BlockMachine
