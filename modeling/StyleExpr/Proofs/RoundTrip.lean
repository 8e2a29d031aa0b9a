import StyleExpr.Proofs.Expr.Equality
import StyleExpr.Proofs.Expr.Spelled
import StyleExpr.Proofs.Grammar.Remainder

/-! Canonical texts read back. What is written for a tree is read as the same tree, and what is read
off a text can be written, but for numbers that are too large to be finite: the text of those is a
word. -/

namespace StyleExpr

open Lexeme

variable {expr : Expr} {text : List CodePoint} {lexemes : List Lexeme}

theorem Lexes.feeds_ofText (lexes : Lexes text lexemes) (position : Position) :
    ∃ tokens ending, tokens.map Token.lexeme = lexemes ∧
      Feeds (Lexer.ofText (Text.ofList text) position) tokens (.ok ending) := by
  rw [Lexer.ofText, Cursor.start, Text.toList_ofList]
  exact lexes.feeds [] position

theorem Lexer.sound_of_ofText {source : Text} {position : Position} {tokens : List Token}
    {ending : Except Fault Position} (feeds : Feeds (ofText source position) tokens ending) :
    ∀ token ∈ tokens, token.lexeme.Sound Value.IsReadable := by
  have scanned := feeds.scanned (by simp [ofText])
  exact fun token member => (scanned token member).sound

namespace Reading

/-- Lexemes that stand for a tree are read as the tree up to places, to the end of the text and without
a warning. -/
theorem ofText_lexes (lexes : Lexes text lexemes) (stands : Stands expr lexemes)
    (position : Position) :
    ∃ again lexer ending, ofText (Text.ofList text) position = (⟨.ok again, []⟩, lexer) ∧
      Feeds lexer [] (.ok ending) ∧ again.unplaced = expr.unplaced := by
  obtain ⟨tokens, ending, same, feeds⟩ := lexes.feeds_ofText position
  obtain ⟨called, again, phrase, alike⟩ := stands tokens same
  rw [← List.append_nil tokens] at feeds
  obtain ⟨lexer, read, left⟩ := ofText_phrase feeds ((phrase false).loosen (by decide)) (Level.stops_nil _)
  rw [called []] at read
  exact ⟨again, lexer, ending, read, left, alike⟩

/-- What is read off a text is a phrase of the tokens at its front, and the others are left. -/
theorem exists_phrase {source : Text} {position : Position} {tokens : List Token}
    {ending : Except Fault Position} (feeds : Feeds (Lexer.ofText source position) tokens ending)
    (accepted : (ofText source position).1.outcome = .ok expr) :
    ∃ front rest, tokens = front ++ rest ∧ Phrase .expression false front expr ∧
      Feeds (ofText source position).2 rest ending := by
  cases read : ofText source position with
  | mk reading lexer =>
    obtain ⟨outcome, warnings⟩ := reading
    rw [read] at accepted
    cases accepted
    obtain ⟨front, rest, split, phrase, -, left, -⟩ :=
      expression_leaves feeds (ofSource_eq_ok_iff.mp read)
    exact ⟨front, rest, split, phrase, left⟩

theorem wellFormed_of_ofText {source : Text} {position : Position}
    (accepted : (ofText source position).1.outcome = .ok expr) :
    expr.WellFormed Value.IsReadable := by
  obtain ⟨tokens, ending, feeds⟩ := exists_feeds (Lexer.ofText source position)
  obtain ⟨front, rest, rfl, phrase, -⟩ := exists_phrase feeds accepted
  have sound := Lexer.sound_of_ofText feeds
  exact phrase.wellFormed fun token member => sound token (List.mem_append_left _ member)

end Reading

theorem Lexeme.Sound.writable {lexeme : Lexeme} (sound : lexeme.Sound Value.IsReadable)
    (number : lexeme.kind = .number → lexeme.value.IsWritable) :
    lexeme.Sound Value.IsWritable := by
  obtain ⟨kind, value, unit⟩ := lexeme
  cases kind with
  | number => exact ⟨number rfl, sound.2⟩
  | _ => exact sound

theorem Expr.Spelled.lexes (spelled : expr.Spelled text lexemes) : Lexes text lexemes := by
  have lexes := spelled.spells [] [] breaks_nil .finish
  rwa [List.append_nil, List.append_nil] at lexes

/-- The canonical text of a tree holds no infinite number, so none is read off it. -/
theorem Expr.Spelled.wellFormed_again {again : Expr} {position : Position}
    (spelled : expr.Spelled text lexemes)
    (accepted : (Reading.ofText (Text.ofList text) position).1.outcome = .ok again) :
    again.WellFormed Value.IsWritable := by
  obtain ⟨tokens, ending, same, feeds⟩ := spelled.lexes.feeds_ofText position
  obtain ⟨front, rest, rfl, phrase, -⟩ := Reading.exists_phrase feeds accepted
  have sound := Lexer.sound_of_ofText feeds
  apply phrase.wellFormed
  intro token member
  have listed := List.mem_append_left rest member
  have number := spelled.numbers token.lexeme (same ▸ List.mem_map_of_mem listed)
  exact (sound token listed).writable number

theorem Expr.WellFormed.exists_readBack (wellFormed : expr.WellFormed Value.IsWritable)
    (position : Position) :
    ∃ text again lexer ending, expr.write = .ok text ∧
      Reading.ofText text position = (⟨.ok again, []⟩, lexer) ∧
      Feeds lexer [] (.ok ending) ∧ again.unplaced = expr.unplaced := by
  obtain ⟨text, lexemes, spelled⟩ := (wellFormed.mono fun _ => .writable).spelled
  obtain ⟨again, lexer, ending, read, feeds, alike⟩ :=
    Reading.ofText_lexes spelled.lexes (spelled.stands wellFormed) position
  exact ⟨_, again, lexer, ending, spelled.written, read, feeds, alike⟩

/-- The canonical text of every well-formed tree is read as the same tree, to its end and without a
warning, and it is the canonical text of what is read. -/
theorem write_reads_back (wellFormed : expr.WellFormed Value.IsWritable) (position : Position) :
    ∃ text again lexer, expr.write = .ok text ∧
      Reading.ofText text position = (⟨.ok again, []⟩, lexer) ∧
      (∃ after, TokenSource.peek lexer = .ok none after ∧ after.cursor.ahead = []) ∧
      again.same expr = true ∧ again.write = .ok text := by
  obtain ⟨text, again, lexer, ending, written, read, feeds, alike⟩ :=
    wellFormed.exists_readBack position
  refine ⟨text, again, lexer, written, read, ?_, ?_, ?_⟩
  · cases feeds with
    | finish looked => exact ⟨_, looked, Lexer.ahead_of_peek_none looked⟩
  · exact Expr.same_of_unplaced (wellFormed.mono fun _ => .writable) alike
  · exact (Expr.write_eq_of_unplaced alike).trans written

/-- The tree `-f(1px)` is written in parentheses and read back. -/
theorem write_reads_back_signed_call :
    let one : Expr := .literal .number (.int 1) (some "px") default
    let expr : Expr := .unary (.call (.text "f") [one] default) .minus default
    expr.WellFormed Value.IsWritable ∧ expr.write = .ok "(-f(1px))" ∧
      ∃ again lexer, Reading.ofText "(-f(1px))" ⟨1, 1⟩ = (⟨.ok again, []⟩, lexer) ∧
        again.same expr = true := by
  intro one expr
  have word : IsWord "f" :=
    ⟨isName_of_letters (by decide) (by decide), rfl, rfl, rfl⟩
  have unit : IsUnit (Text.ofString "px").toList := .letters (by decide) (List.all_eq_true.mp (by decide))
  have number : one.WellFormed Value.IsWritable :=
    .number (.int (show 1 < 10 ^ integerDigitLimit by decide +kernel)) (by simpa using unit)
  have wellFormed : expr.WellFormed Value.IsWritable :=
    .unary (.call word (by simpa using number)) (by decide)
  have written : expr.write = .ok "(-f(1px))" := rfl
  obtain ⟨text, again, lexer, written', read, -, same, -⟩ := write_reads_back wellFormed ⟨1, 1⟩
  rw [written] at written'
  cases written'
  exact ⟨wellFormed, written, again, lexer, read, same⟩

/-- The canonical text of what is read off a text is read as the same tree again, and stays as it is,
exactly if no number of the tree is infinite. -/
theorem canonical_iff_finite {source : Text} (accepted : parse source = .ok expr) :
    (∃ text again, expr.write = .ok text ∧ parse text = .ok again ∧ again.same expr = true ∧
        again.write = .ok text) ↔ ¬ expr.HasInfinity := by
  have readable := Reading.wellFormed_of_ofText accepted
  constructor
  · rintro ⟨text, again, written, read, same, -⟩ infinite
    obtain ⟨text', lexemes, spelled⟩ := readable.spelled
    rw [spelled.written] at written
    cases written
    exact (spelled.wellFormed_again read).finite (infinite.of_same same)
  · intro finite
    obtain ⟨text, again, lexer, ending, written, read, -, alike⟩ :=
      (readable.writable finite).exists_readBack ⟨1, 1⟩
    refine ⟨text, again, written, by rw [parse, read], ?_, ?_⟩
    · exact Expr.same_of_unplaced readable alike
    · exact (Expr.write_eq_of_unplaced alike).trans written

/-- One with 309 zeros: too large to be a finite number. -/
def vastDigits : List CodePoint :=
  scalar '1' :: List.replicate 309 (scalar '0')

theorem plain_vastDigits : Plain vastDigits := by
  intro c member
  rcases List.mem_cons.mp member with rfl | member
  · rfl
  · exact plain_zeros _ c member

theorem reads_vastDigits : Reads (vastDigits ++ ([scalar '.', scalar '0'] ++ [])) []
    ⟨.number, .float (.infinite false), none⟩ := by
  have point : IsFraction [scalar '.', scalar '0'] := .point (List.cons_ne_nil _ _) (plain_zeros 1)
  have infinite : Double.ofRatio false (Text.ofDigits 10 (vastDigits ++ [scalar '0']) 0) (10 ^ 1) =
      .infinite false := by decide +kernel
  have denoted :
      (NumberParts.mk vastDigits ['.', '0'] []).value? = .ok (.float (.infinite false)) := by
    have digits := Numeral.double?_plain plain_vastDigits (plain_zeros 1)
    rw [show List.replicate 1 (scalar '0') = [scalar '0'] from rfl] at digits
    simp only [NumberParts.value?, digits, List.length_singleton, infinite]
    rfl
  exact reads_number (List.cons_ne_nil _ _) plain_vastDigits point (.inl rfl) breaks_nil denoted

/-- The text of a vast number is not canonical: it is written as the word `inf`. -/
theorem vastDigits_not_canonical :
    ∃ expr, parse (Text.ofList (vastDigits ++ [scalar '.', scalar '0'])) = .ok expr ∧
      expr.write = .ok "inf" ∧ ¬ ∃ text again, expr.write = .ok text ∧ parse text = .ok again ∧
        again.same expr = true ∧ again.write = .ok text := by
  have lexes : Lexes (vastDigits ++ ([scalar '.', scalar '0'] ++ []) ++ []) _ :=
    .lexeme reads_vastDigits .finish
  have stands : Stands (.literal .number (.float (.infinite false)) none default)
      [⟨.number, _, none⟩] := .literal rfl
  obtain ⟨expr, lexer, ending, read, -, alike⟩ := Reading.ofText_lexes lexes stands ⟨1, 1⟩
  have accepted : parse (Text.ofList (vastDigits ++ [scalar '.', scalar '0'])) = .ok expr := by
    rw [List.append_nil, List.append_nil] at read
    rw [parse, read]
  have infinite : expr.HasInfinity := by
    cases expr with
    | literal =>
      simp only [Expr.unplaced_literal, Expr.literal.injEq] at alike
      rw [alike.2.1]
      exact .literal _ _ _ _
    | binary | unary | call | reference | bare => cases alike
  have written : expr.write = .ok "inf" := (Expr.write_eq_of_unplaced alike).trans rfl
  exact ⟨expr, accepted, written, fun canonical => (canonical_iff_finite accepted).mp canonical infinite⟩

end StyleExpr
