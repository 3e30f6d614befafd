import BlockMachine.Proofs.Document.Takes

/-!
# Texts are read as they are written

* `Literal.text_renderChar`, `Reader.takes_text` — a character, and a whole text.
* `Literal.skip_text`, `Reader.takes_skipText` — a text that is passed over.
-/

set_option autoImplicit false

namespace BlockMachine

open Grammar

namespace Literal

variable {c : Char} {count : Nat} {read rest : List Char} {place : Place}

/-! ## With its value -/

/-- The four digits of an escape by number write the number of a control character. -/
theorem hexValue?_twoDigits :
    ∀ number < 32, hexValue? ('0' :: '0' :: Value.twoDigits number) = some number := by
  decide

/-- The escape by number of a control character. -/
theorem escape_control (hc : c < ' ') :
    escape place ('u' :: '0' :: '0' :: (Value.twoDigits c.toNat ++ rest)) = .ok (c, 5) := by
  have hlt : c.toNat < 32 := hc
  have hunit : ∀ place,
      unit place ('0' :: '0' :: (Value.twoDigits c.toNat ++ rest)) = .ok c.toNat := by
    intro place
    have hvalue := hexValue?_twoDigits c.toNat hlt
    simp only [Value.twoDigits] at hvalue
    simp [unit, Value.twoDigits, hvalue]
  have htrailing : isTrailing c.toNat = false := by simp [isTrailing]; omega
  have hleading : isLeading c.toNat = false := by simp [isLeading]; omega
  simp only [escape, numbered, hunit]
  simp only [bind, Except.bind, htrailing, hleading, Bool.false_eq_true, if_false, pure, Except.pure,
    Char.ofNat_toNat]

/-- An escape is read as the character it stands for. -/
theorem text_escape (hescape : escape (place.after '\\') rest = .ok (c, count)) :
    ∃ place', text read place ('\\' :: rest) = text (c :: read) place' (rest.drop count) := by
  refine ⟨(place.after '\\').through (rest.take count), ?_⟩
  rw [text, hescape]
  rfl

/-- A letter behind a backslash is read as the character it stands for. -/
theorem text_letter {letter : Char} (hletter : escaped? letter = some c) :
    ∃ place', text read place ('\\' :: letter :: rest) = text (c :: read) place' rest := by
  have hescape : ∀ place, escape place (letter :: rest) = .ok (c, 1) := by
    intro place
    rw [escape]
    · rw [hletter]
    · rintro rfl
      exact nomatch hletter
  exact text_escape (hescape _)

/-- **A character is read as it is written.** -/
theorem text_renderChar (c : Char) :
    ∃ place', text read place (Value.renderChar c ++ rest) = text (c :: read) place' rest := by
  unfold Value.renderChar
  split
  case h_8 hquote hbackslash _ _ _ _ _ =>
    by_cases hc : c < ' '
    · rw [if_pos hc]
      exact text_escape (escape_control hc)
    · have hcontrol : ¬isControl c = true := by rwa [isControl, decide_eq_true_eq]
      refine ⟨place.after c, ?_⟩
      rw [if_neg hc, List.singleton_append, text, if_neg hcontrol]
      · exact hquote
      · exact hbackslash
  all_goals exact text_letter rfl

/-- The characters of a text are read up to its closing quote. -/
theorem text_written (rest : List Char) : ∀ (chars read : List Char) (place : Place),
    ∃ place', text read place (chars.flatMap Value.renderChar ++ '"' :: rest) =
      .ok (String.ofList (read.reverse ++ chars), ⟨place', rest⟩)
  | [], read, place => ⟨place.after '"', by simp [text]⟩
  | c :: chars, read, place => by
    obtain ⟨between, hchar⟩ := text_renderChar c
    obtain ⟨behind, hrest⟩ := text_written rest chars (c :: read) between
    refine ⟨behind, ?_⟩
    rw [List.flatMap_cons, List.append_assoc, hchar, hrest, List.reverse_cons, List.append_assoc,
      List.singleton_append]

/-! ## Without its value -/

/-- An escape is passed over. -/
theorem skip_escape (place : Place) (hescape : ∀ place, escapeLength place rest = .ok count) :
    ∃ place', skip place ('\\' :: rest) = skip place' (rest.drop count) := by
  refine ⟨(place.after '\\').through (rest.take count), ?_⟩
  rw [skip, hescape]
  rfl

/-- Four hexadecimal digits have a value. -/
theorem hexValue?_ok {digits : List Char} (hlength : digits.length = 4)
    (hdigits : ∀ c ∈ digits, (hexDigit? c).isSome) : ∃ value, hexValue? digits = some value := by
  match digits, hlength with
  | [a, b, c, d], _ =>
    simp only [List.mem_cons, List.not_mem_nil, or_false, forall_eq_or_imp, forall_eq,
      Option.isSome_iff_exists] at hdigits
    obtain ⟨⟨w, ha⟩, ⟨x, hb⟩, ⟨y, hc⟩, ⟨z, hd⟩⟩ := hdigits
    have hread : [a, b, c, d].mapM hexDigit? = some [w, x, y, z] := by simp [ha, hb, hc, hd]
    refine ⟨[w, x, y, z].foldl (fun value digit => 16 * value + digit) 0, ?_⟩
    rw [hexValue?, hread]
    rfl

/-- The four digits of an escape by number have a value. -/
theorem unit_ok {digits : List Char} (rest : List Char) (hlength : digits.length = 4)
    (hdigits : ∀ c ∈ digits, (hexDigit? c).isSome) :
    ∃ value, ∀ place, unit place (digits ++ rest) = .ok value := by
  obtain ⟨value, hvalue⟩ := hexValue?_ok hlength hdigits
  refine ⟨value, fun place => ?_⟩
  simp only [unit, List.take_left' hlength, hvalue]

/-- **A text is passed over up to its closing quote.** -/
theorem skip_text {chars : List Char} (rest : List Char) (htext : Text chars) (place : Place) :
    ∃ place', skip place (chars ++ '"' :: rest) = .ok ⟨place', rest⟩ := by
  induction htext generalizing place with
  | nil => exact ⟨place.after '"', by simp [skip]⟩
  | @plain c later hquote hbackslash hcontrol _ ih =>
    obtain ⟨behind, hskip⟩ := ih (place.after c)
    have hplain : ¬isControl c = true := by simpa [isControl] using hcontrol
    refine ⟨behind, ?_⟩
    rw [List.cons_append, skip, if_neg hplain, hskip]
    · exact hquote
    · exact hbackslash
  | @letter c later hletter _ ih =>
    have hescape : ∀ place, escapeLength place (c :: (later ++ '"' :: rest)) = .ok 1 := by
      intro place
      simp only [letters, List.mem_cons, List.not_mem_nil, or_false] at hletter
      rcases hletter with rfl | rfl | rfl | rfl | rfl | rfl | rfl | rfl <;> rfl
    obtain ⟨between, hbetween⟩ := skip_escape place hescape
    obtain ⟨behind, hskip⟩ := ih between
    exact ⟨behind, hbetween.trans hskip⟩
  | @number digits later hlength hdigits _ ih =>
    obtain ⟨value, hvalue⟩ := unit_ok (later ++ '"' :: rest) hlength hdigits
    have hescape : ∀ place,
        escapeLength place ('u' :: (digits ++ (later ++ '"' :: rest))) = .ok 5 := by
      intro place
      rw [escapeLength, hvalue]
      rfl
    obtain ⟨between, hbetween⟩ := skip_escape place hescape
    obtain ⟨behind, hskip⟩ := ih between
    refine ⟨behind, ?_⟩
    rw [List.drop_succ_cons, List.drop_left' hlength] at hbetween
    rw [List.cons_append, List.cons_append, List.append_assoc, hbetween, hskip]

end Literal

namespace Reader

variable {rest : List Char}

/-- **A text is read as it is written.** -/
theorem takes_text (name : String) :
    text.Takes (name.toList.flatMap Value.renderChar ++ ['"']) rest name := by
  intro place
  obtain ⟨place', hread⟩ := Literal.text_written rest name.toList [] place
  refine ⟨place', ?_⟩
  rw [List.append_assoc]
  simpa [text] using hread

/-- A text is passed over. -/
theorem takes_skipText {chars : List Char} (htext : Text chars) :
    skipText.Takes (chars ++ ['"']) rest () := by
  intro place
  obtain ⟨place', hskip⟩ := Literal.skip_text rest htext place
  refine ⟨place', ?_⟩
  rw [List.append_assoc]
  show (Literal.skip _ _ >>= fun cursor => _) = _
  rw [List.singleton_append, hskip]
  rfl

end Reader

end BlockMachine
