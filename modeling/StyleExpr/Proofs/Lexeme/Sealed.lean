import StyleExpr.Proofs.Lexeme.Lexical
import StyleExpr.Proofs.Text.Units

/-! Delimiters: characters that no lexeme but a text in quotes holds beside others. A closing parenthesis
is one, so what stands behind it does not matter to the lexemes in front of it. -/

namespace StyleExpr.Lexeme

open Text

/-- A character that is no part of a name, a numeral, a unit or a colour. -/
structure Delimiter (c : CodePoint) : Prop where
  word : isWord c = false
  hyphen : c ≠ scalar '-'
  digit : isDigit c = false
  point : c ≠ scalar '.'
  letter : isLetter c = false
  percent : c ≠ scalar '%'

theorem delimiter_closing : Delimiter (scalar ')') :=
  ⟨by decide, by decide, by decide, by decide, by decide, by decide⟩

/-- Surrogates are neither letters nor digits. -/
theorem delimiter_high {c : CodePoint} (isHigh : c.IsHigh) : Delimiter c := by
  have ascii : ¬ c.toNat < 128 := by
    obtain ⟨bounded, _⟩ := isHigh
    omega
  have inside : Ranges.holds [(0xD800, 0xDBFF)] c = true :=
    Ranges.holds_iff.mpr ⟨_, List.mem_singleton_self _, isHigh.1, Nat.le_of_lt_succ isHigh.2⟩
  have outside {ranges : Ranges} (apart : Ranges.apart [(0xD800, 0xDBFF)] ranges = true) :
      ranges.holds c = false := Ranges.holds_of_apart apart inside
  have letter : isLetter c = false := by
    rw [isLetter, if_neg ascii]
    exact outside (by decide +kernel)
  have digit : isDigit c = false := by
    have valueless : decimalValue? c = none := by
      cases found : decimalValue? c with
      | none => rfl
      | some value =>
        have digit := holds_of_decimalValue? ascii found
        rw [outside (by decide +kernel)] at digit
        cases digit
    rw [isDigit, valueless, outside (by decide +kernel)]
    rfl
  have other (d : Char) (short : d.toNat < 128) : c ≠ scalar d := by
    rintro rfl
    exact ascii short
  refine ⟨?_, other _ (by decide), digit, other _ (by decide), letter, other _ (by decide)⟩
  rw [isWord, isAlphanumeric, letter, digit, outside (by decide +kernel)]
  exact decide_eq_false (other _ (by decide))

/-- Nothing of the form holds the character. -/
def Lacks (c : CodePoint) (form : List CodePoint → Prop) : Prop :=
  ∀ text, form text → c ∉ text

variable {form : List CodePoint → Prop} {isMember : CodePoint → Bool} {c : CodePoint}
variable {shared behind front more text rest : List CodePoint} {kind : TokenKind} {lexeme : Lexeme}

theorem isPrefix_of_lacking (lacking : c ∉ front) (leads : front <+: shared ++ c :: behind) :
    front <+: shared := by
  induction shared generalizing front with
  | nil =>
    cases front with
    | nil => exact List.nil_prefix
    | cons d front =>
      obtain ⟨rfl, -⟩ := List.cons_prefix_cons.mp leads
      exact absurd (List.mem_cons_self ..) lacking
  | cons e shared ih =>
    cases front with
    | nil => exact List.nil_prefix
    | cons d front =>
      obtain ⟨rfl, behind⟩ := List.cons_prefix_cons.mp leads
      have inside := ih (mt (List.mem_cons_of_mem _) lacking) behind
      exact List.cons_prefix_cons.mpr ⟨rfl, inside⟩

/-- A longest match ends in front of the delimiter, whatever stands behind it. -/
theorem Longest.sealed (lacks : Lacks c form) (longest : Longest form (shared ++ c :: behind) front)
    (behind' : List CodePoint) : Longest form (shared ++ c :: behind') front where
  formed := longest.formed
  leads := by
    have inside := isPrefix_of_lacking (lacks _ longest.formed) longest.leads
    exact inside.trans (List.prefix_append ..)
  longest := by
    intro other formed leads
    have inside := isPrefix_of_lacking (lacks _ formed) leads
    exact longest.longest other formed (inside.trans (List.prefix_append ..))

theorem lacks_run (outside : isMember c = false) : Lacks c (Run isMember) := by
  intro text run member
  rw [run _ member] at outside
  cases outside

namespace Delimiter

variable (delimiter : Delimiter c)
include delimiter

theorem alphanumeric : isAlphanumeric c = false := by
  have outside := delimiter.word
  rw [isWord, Bool.or_eq_false_iff] at outside
  exact outside.1

theorem lacks_hyphenated : Lacks c Hyphenated := by
  have words := lacks_run delimiter.word
  intro text hyphenated
  induction hyphenated with
  | word _ each => exact words _ each
  | joined _ each _ ih => simp [words _ each, delimiter.hyphen, ih]

theorem lacks_numeral : Lacks c IsNumeral := by
  have digits := lacks_run delimiter.digit
  rintro text ⟨number, denotes⟩
  cases denotes with
  | whole _ each => exact digits _ each
  | point each _ behind => simp [digits _ each, delimiter.point, digits _ behind]

theorem lacks_unit : Lacks c fun suffix => suffix = [] ∨ IsUnit suffix := by
  rintro suffix (rfl | unit)
  · exact List.not_mem_nil
  · cases unit with
    | percent => simpa using delimiter.percent
    | letters _ each => exact lacks_run delimiter.letter _ each

end Delimiter

theorem spelled?_closing (spelled : spelled? text = some kind) :
    text = [scalar ')'] ∧ kind = .closeParen ∨ scalar ')' ∉ text ∧ kind ≠ .closeParen := by
  unfold spelled? at spelled
  split at spelled <;> cases spelled <;> first | exact .inl ⟨rfl, rfl⟩ | exact .inr (by decide)

theorem longest_spelling_sealed (nonempty : front ≠ [])
    (longest : Longest IsSpelling (front ++ more ++ scalar ')' :: behind) front) (behind' : List CodePoint) :
    Longest IsSpelling (front ++ more ++ scalar ')' :: behind') front where
  formed := longest.formed
  leads := by
    rw [List.append_assoc]
    exact List.prefix_append ..
  longest := by
    rintro other ⟨kind, spelled⟩ leads
    rcases spelled?_closing spelled with ⟨rfl, -⟩ | ⟨lacking, -⟩
    · exact List.length_pos_iff.mpr nonempty
    · have inside := isPrefix_of_lacking lacking leads
      exact longest.longest other ⟨kind, spelled⟩ (inside.trans (List.prefix_append ..))

theorem startsWith_sealed (shared behind behind' : List CodePoint) :
    startsWith isMember (shared ++ scalar ')' :: behind) =
      startsWith isMember (shared ++ scalar ')' :: behind') := by
  cases shared <;> rfl

theorem Opens.sealed {opening : Opening} (nonempty : shared ≠ [])
    (opens : Opens (shared ++ scalar ')' :: behind) opening) (behind' : List CodePoint) :
    Opens (shared ++ scalar ')' :: behind') opening := by
  obtain ⟨c, shared, rfl⟩ := List.exists_cons_of_ne_nil nonempty
  cases opens with
  | name start => exact .name start
  | reference sigil start => exact .reference sigil (startsWith_sealed .. ▸ start)
  | digit digit => exact .digit digit
  | point digit => exact .point (startsWith_sealed .. ▸ digit)
  | quotation => exact .quotation
  | color => exact .color

/-- A lexeme in front of a closing parenthesis does not depend on what stands behind that. -/
theorem Lexical.sealed (nonempty : front ≠ [])
    (lexical : Lexical (front ++ more ++ scalar ')' :: behind) front (.ok lexeme)) (behind' : List CodePoint) :
    Lexical (front ++ more ++ scalar ')' :: behind') front (.ok lexeme) := by
  have shared : front ++ more ≠ [] := List.append_ne_nil_of_left_ne_nil nonempty more
  generalize whole : front ++ more ++ scalar ')' :: behind = text at lexical
  generalize given : Except.ok lexeme = found at lexical
  cases lexical with
  | name opens longest word =>
    subst whole
    cases given
    exact .name (opens.sealed shared behind') (longest.sealed delimiter_closing.lacks_hyphenated behind') word
  | reference opens split longest =>
    cases given
    rw [← whole, List.cons_append, List.cons_append] at split
    obtain ⟨-, rfl⟩ := List.cons.inj split
    rw [← whole] at opens
    exact .reference (opens.sealed shared behind') rfl (longest.sealed delimiter_closing.lacks_hyphenated behind')
  | @number digits rest suffix number opens longest split unit denotes =>
    rw [← whole, List.append_assoc, List.append_assoc, ← List.append_assoc suffix] at split
    obtain rfl := List.append_cancel_left split
    rw [← whole] at opens longest
    have behind : digits ++ suffix ++ more ++ scalar ')' :: behind' =
        digits ++ (suffix ++ more ++ scalar ')' :: behind') := by
      simp only [List.append_assoc]
    exact .number (opens.sealed shared behind') (longest.sealed delimiter_closing.lacks_numeral behind') behind
      (unit.sealed delimiter_closing.lacks_unit behind') denotes
  | @quotation _ body content split quoted =>
    cases given
    have behind : scalar '\x22' :: (body ++ [scalar '\x22']) ++ more ++ scalar ')' :: behind' =
        scalar '\x22' :: (body ++ scalar '\x22' :: (more ++ scalar ')' :: behind')) := by
      simp only [List.cons_append, List.append_assoc, List.nil_append]
    exact .quotation behind quoted
  | color split longest color =>
    cases given
    rw [← whole, List.cons_append, List.cons_append] at split
    obtain ⟨-, rfl⟩ := List.cons.inj split
    exact .color rfl (longest.sealed (lacks_run delimiter_closing.alphanumeric) behind') color
  | symbol unopened longest spelled =>
    subst whole
    cases given
    refine .symbol ?_ (longest_spelling_sealed nonempty longest behind') spelled
    exact fun opening opens => unopened opening (opens.sealed shared behind)
  | unterminated | discolored | unexpected => cases given

/-- What is read off the front of a text is what the lexical grammar tells. -/
theorem reads_iff : Reads front rest lexeme ↔
    (∃ c back, front = c :: back ∧ isSpace c = false) ∧ Lexical (front ++ rest) front (.ok lexeme) := by
  constructor
  · rintro ⟨c, back, rfl, solid, scanned⟩
    obtain ⟨front, leads, length, lexical⟩ := lexical_scan c (back ++ rest)
    rw [scanned] at length lexical
    have part : front <+: c :: back :=
      List.prefix_of_prefix_length_le leads (List.prefix_append (c :: back) rest) (Nat.le_of_eq length.symm)
    obtain rfl := part.eq_of_length length.symm
    exact ⟨⟨c, back, rfl, solid⟩, lexical⟩
  · rintro ⟨⟨c, back, rfl, solid⟩, lexical⟩
    exact ⟨c, back, rfl, solid, (scan_of_lexical lexical).1⟩

theorem Reads.sealed (reads : Reads front (more ++ scalar ')' :: behind) lexeme) (behind' : List CodePoint) :
    Reads front (more ++ scalar ')' :: behind') lexeme := by
  obtain ⟨⟨c, back, rfl, solid⟩, lexical⟩ := reads_iff.mp reads
  rw [← List.append_assoc] at lexical
  refine reads_iff.mpr ⟨⟨c, back, rfl, solid⟩, ?_⟩
  rw [← List.append_assoc]
  exact lexical.sealed (List.cons_ne_nil _ _) behind'

def closing : Lexeme :=
  ⟨.closeParen, .text ")", none⟩

theorem reads_closing (rest : List CodePoint) : Reads [scalar ')'] rest closing :=
  reads_single (by decide) rfl fun _ _ => rfl

theorem Reads.closing_eq (reads : Reads front rest lexeme) (kind : lexeme.kind = .closeParen) :
    front = [scalar ')'] ∧ lexeme = closing := by
  obtain ⟨-, lexical⟩ := reads_iff.mp reads
  generalize whole : front ++ rest = text at lexical
  generalize given : Except.ok lexeme = found at lexical
  cases lexical with
  | name opens longest word =>
    cases given
    cases word with
    | keyword spelled =>
      rcases spelled?_closing spelled with ⟨rfl, -⟩ | ⟨-, other⟩
      · rw [← whole] at opens
        exact absurd (startsName_of_opens opens) (show ¬ startsName (scalar ')') = true by decide)
      · exact absurd kind other
    | truth | color | identifier => cases kind
  | @number _ _ _ number =>
    cases number <;> cases given
    cases kind
  | symbol _ _ spelled =>
    cases given
    rcases spelled?_closing spelled with ⟨rfl, rfl⟩ | ⟨-, other⟩
    · exact ⟨rfl, rfl⟩
    · exact absurd kind other
  | reference | quotation | color =>
    cases given
    cases kind
  | unterminated | discolored | unexpected => cases given

end StyleExpr.Lexeme
