import StyleExpr.Proofs.Lexeme.Names

/-! Which scanner reads a lexeme, by its first characters. What a scanner can give is said once, for
all that is proved of tokens. -/

namespace StyleExpr.Lexeme

open Text

variable {c : CodePoint} {rest : List CodePoint}

/-- The first one or two characters choose the scanner. -/
inductive Chosen (c : CodePoint) (rest : List CodePoint) : Scan → Prop where
  | name (start : startsName c = true) : Chosen c rest (scanName (c :: rest))
  | reference (sigil : c = scalar '!' ∨ c = scalar '$') (start : startsWith startsName rest = true) :
      Chosen c rest (scanReference rest)
  | number (start : isDigit c = true ∨ c = scalar '.' ∧ startsWith isDigit rest = true) :
      Chosen c rest (scanNumber (c :: rest))
  | quotation (quote : c = scalar '\x22') : Chosen c rest (scanQuotation rest)
  | color (sign : c = scalar '#') : Chosen c rest (scanColor rest)
  | symbol : Chosen c rest
      ((scanSymbol (c :: rest)).getD ⟨0, .error (.problem (.unexpectedCharacter c))⟩)

theorem chosen (c : CodePoint) (rest : List CodePoint) : Chosen c rest (scan c rest) := by
  unfold scan
  split
  · next start => exact .name start
  split
  · next both =>
    simp only [Bool.and_eq_true, Bool.or_eq_true, decide_eq_true_eq] at both
    exact .reference both.1 both.2
  split
  · next start =>
    simp only [Bool.or_eq_true, Bool.and_eq_true, decide_eq_true_eq] at start
    exact .number start
  split
  · next quote => exact .quotation quote
  split
  · next sign => exact .color sign
  · exact .symbol

/-- Signs begin no name and no number. -/
def signs : List CodePoint :=
  ['!', '\x22', '#', '(', ')', ',', '+', '-', '*', '/', '%', '=', '>', '<']

theorem outside_of_signs : ∀ c ∈ signs,
    startsName c = false ∧ isDigit c = false ∧ c ≠ scalar '.' ∧ isSpace c = false := by
  have outside :
      (signs.all fun c => !startsName c && !isDigit c && c != scalar '.' && !isSpace c) = true := by
    decide
  simpa only [List.all_eq_true, Bool.and_eq_true, Bool.not_eq_true', bne_iff_ne, and_assoc] using outside

theorem startsName_of_isDigit (digit : isDigit c = true) : startsName c = false := by
  rw [startsName, Bool.or_eq_false_iff, decide_eq_false_iff_not, ← Bool.not_eq_true]
  constructor
  · intro letter
    rw [isDigit_of_isLetter letter] at digit
    cases digit
  · rintro rfl
    revert digit
    decide

theorem isSpace_of_startsName (start : startsName c = true) : isSpace c = false := by
  rw [← Bool.not_eq_true]
  intro blank
  simp only [isSpace, Bool.or_eq_true, decide_eq_true_eq] at blank
  revert start
  rcases blank with (((rfl | rfl) | rfl) | rfl) | rfl <;> decide

theorem isSpace_of_isDigit (digit : isDigit c = true) : isSpace c = false := by
  rw [← Bool.not_eq_true]
  intro blank
  simp only [isSpace, Bool.or_eq_true, decide_eq_true_eq] at blank
  revert digit
  rcases blank with (((rfl | rfl) | rfl) | rfl) | rfl <;> decide

theorem scan_name (start : startsName c = true) : scan c rest = scanName (c :: rest) := by
  rw [scan, if_pos start]

theorem scan_reference (start : startsWith startsName rest = true) :
    scan (scalar '!') rest = scanReference rest := by
  have outside := outside_of_signs (scalar '!') (by decide)
  simp [scan, start, outside.1]

theorem scan_number (digit : isDigit c = true) : scan c rest = scanNumber (c :: rest) := by
  have sigil : ¬ (c = scalar '!' ∨ c = scalar '$') := by
    rintro (rfl | rfl)
    · revert digit
      decide
    · revert digit
      decide
  rw [not_or] at sigil
  simp [scan, startsName_of_isDigit digit, digit, sigil.1, sigil.2]

theorem scan_quotation : scan (scalar '\x22') rest = scanQuotation rest := by
  have outside := outside_of_signs (scalar '\x22') (by decide)
  simp [scan, outside.1, outside.2.1]

theorem scan_color : scan (scalar '#') rest = scanColor rest := by
  have outside := outside_of_signs (scalar '#') (by decide)
  simp [scan, outside.1, outside.2.1]

/-- A sign that no longer scanner takes is looked up among the fixed spellings. -/
theorem scan_symbol (sign : c ∈ signs) (other : c ≠ scalar '\x22' ∧ c ≠ scalar '#')
    (unnamed : c = scalar '!' → startsWith startsName rest = false) :
    scan c rest =
      (scanSymbol (c :: rest)).getD ⟨0, .error (.problem (.unexpectedCharacter c))⟩ := by
  obtain ⟨name, digit, point, -⟩ := outside_of_signs c sign
  have dollar : c ≠ scalar '$' := by
    rintro rfl
    revert sign
    decide
  have sigil : ((c = scalar '!' || c = scalar '$') && startsWith startsName rest) = false := by
    by_cases bang : c = scalar '!'
    · simp [unnamed bang]
    · simp [bang, dollar]
  simp [scan, name, digit, point, sigil, other.1, other.2]

end StyleExpr.Lexeme
