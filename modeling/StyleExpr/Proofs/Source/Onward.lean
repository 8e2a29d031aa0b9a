import StyleExpr.Proofs.Source.Stepwise
import StyleExpr.Proofs.Source.Upkeep

/-! Reading goes on to the end of the text and no further. Every token takes characters, without one the
lexer is at the end, and there it stays; so an iteration ends after at most as many tokens as the text has
characters. -/

namespace StyleExpr

open Lexeme

/-- No lexeme is flawed by the end of the text as such. -/
theorem Lexeme.Lexical.flaw_ne {text front : List CodePoint} {flaw : Flaw}
    (lexical : Lexical text front (.error flaw)) : flaw ≠ .problem .endOfText := by
  have numeral (suffix : List CodePoint) (number : Except NumeralFault Value) :
      ofNumber suffix number ≠ .error (.problem .endOfText) := by
    cases number <;> exact nofun
  generalize same : Except.error flaw = found at lexical
  rintro rfl
  cases lexical with
  | number => exact numeral _ _ same.symm
  | unterminated | discolored | unexpected => cases same
  | name | reference | quotation | color | symbol => cases same

namespace Cursor

variable {cursor after : Cursor} {fault : Fault}

theorem Kept.length_eq {text : List CodePoint} {start : Position} (kept : cursor.Kept text start) :
    cursor.index + cursor.ahead.length = text.length := by
  rw [← kept.source, Cursor.source, List.length_append, List.length_reverse]
  rfl

theorem nextToken_ne_endOfText (failed : cursor.nextToken = .error fault after) (place : Position) :
    fault ≠ .malformed .endOfText place := by
  have next := cursor.next_nextToken
  rw [failed] at next
  cases next with
  | @flaw c rest flaw ahead found =>
    obtain ⟨front, -, -, lexical⟩ := lexical_scan c rest
    rw [found] at lexical
    cases flaw with
    | numeral => exact nofun
    | problem cause =>
      rintro ⟨⟩
      exact lexical.flaw_ne rfl

theorem index_lt_of_nextToken {token : Token} (found : cursor.nextToken = .ok (some token) after) :
    cursor.index < after.index := by
  have next := cursor.next_nextToken
  rw [found] at next
  cases next with
  | @token c rest lexeme ahead scanned =>
    have positive := scan_length_pos scanned
    have onward : cursor.index ≤ cursor.skipSpace.index := cursor.index_le_skip _
    rw [index_skip, ahead, List.length_cons]
    omega

theorem ahead_of_nextToken_none (found : cursor.nextToken = .ok none after) : after.ahead = [] := by
  have next := cursor.next_nextToken
  rw [found] at next
  cases next with
  | finish ended => exact ended

end Cursor

/-- An iteration that is not cut short takes all tokens, and leaves the source in one state. -/
theorem Feeds.collectUpTo_enough {σ : Type} [TokenSource σ] {source : σ} {tokens : List Token}
    {ending : Except Fault Position} (feeds : Feeds source tokens ending) {count count' : Nat}
    (enough : tokens.length < count) (enough' : tokens.length < count') :
    TokenSource.collectUpTo count source = TokenSource.collectUpTo count' source := by
  induction feeds generalizing count count' with
  | finish looked =>
    obtain ⟨count, rfl⟩ := Nat.exists_eq_succ_of_ne_zero (Nat.ne_of_gt enough)
    obtain ⟨count', rfl⟩ := Nat.exists_eq_succ_of_ne_zero (Nat.ne_of_gt enough')
    simp only [TokenSource.collectUpTo, TokenSource.next_of_end looked]
  | broken looked =>
    obtain ⟨count, rfl⟩ := Nat.exists_eq_succ_of_ne_zero (Nat.ne_of_gt enough)
    obtain ⟨count', rfl⟩ := Nat.exists_eq_succ_of_ne_zero (Nat.ne_of_gt enough')
    simp only [TokenSource.collectUpTo, TokenSource.next_of_fault looked]
  | token looked rest ih =>
    obtain ⟨count, rfl⟩ := Nat.exists_eq_succ_of_ne_zero (Nat.ne_of_gt (Nat.zero_lt_of_lt enough))
    obtain ⟨count', rfl⟩ := Nat.exists_eq_succ_of_ne_zero (Nat.ne_of_gt (Nat.zero_lt_of_lt enough'))
    simp only [TokenSource.collectUpTo, TokenSource.next_of_token looked,
      ih (Nat.lt_of_succ_lt_succ enough) (Nat.lt_of_succ_lt_succ enough')]

namespace Lexer

variable {lexer ended : Lexer} {text : List CodePoint} {start : Position}

/-- The lexer as a series of actions leaves it, those that fail included. -/
def left (lexer : Lexer) (actions : List Action) : Lexer :=
  actions.foldl (fun lexer action => (action.take lexer).2) lexer

theorem Kept.left (kept : lexer.Kept text start) (actions : List Action) :
    (lexer.left actions).Kept text start := by
  induction actions generalizing lexer with
  | nil => exact kept
  | cons action actions ih => exact ih (action.keeps kept).kept

/-- A lexer that has shown no token is left with no more to read. -/
def Ended (lexer : Lexer) : Prop :=
  lexer.cursor.ahead = [] ∧ lexer.shown = none

theorem ended_of_peek (looked : TokenSource.peek lexer = .ok none ended) : ended.Ended := by
  refine ⟨ahead_of_peek_none looked, ?_⟩
  rcases peek_cases looked with ⟨head, -, none, -⟩ | ⟨cursor, -, rfl⟩
  · cases none
  · rfl

theorem ended_of_next (read : TokenSource.next lexer = .ok none ended) : ended.Ended := by
  cases looked : TokenSource.peek lexer with
  | error fault after =>
    rw [TokenSource.next_of_fault looked] at read
    cases read
  | ok shown after =>
    cases shown with
    | some token =>
      rw [TokenSource.next_of_token looked] at read
      cases read
    | none =>
      rw [TokenSource.next_of_end looked] at read
      cases read
      exact ended_of_peek looked

theorem Ended.peek (ended : lexer.Ended) : TokenSource.peek lexer = .ok none lexer := by
  obtain ⟨⟨behind, ahead, position⟩, shown⟩ := lexer
  obtain ⟨none, unshown⟩ := ended
  cases none
  cases unshown
  exact peek_ok (Cursor.nextToken_end behind position)

theorem Ended.take (ended : lexer.Ended) (action : Action) : (action.take lexer).2 = lexer := by
  have none : lexer.cursor.ahead = [] := ended.1
  cases action with
  | query asked =>
    obtain ⟨reply, same, -⟩ := TokenSource.ask_of_end ended.peek asked
    simp only [Action.take, Action.put, TokenSource.map_of_ok _ same, outcome]
  | collect =>
    simp only [Action.take, Action.put, TokenSource.collect, TokenSource.collectUpTo,
      TokenSource.next_of_end ended.peek]
  | advance =>
    have same : onCursor Cursor.next lexer = .error (.malformed .endOfText lexer.cursor.position) lexer := by
      simp only [onCursor, Cursor.next, none]
    simp only [Action.take, Action.put, TokenSource.map_of_error _ same, outcome]
  | peekChar distance => rfl
  | skipSpace => simp [Action.take, Action.put, Cursor.skipSpace, none]
  | readName => simp [Action.take, Action.put, Cursor.readName, none, nameChars, nameFront]
  | readSymbol => simp [Action.take, Action.put, Cursor.readSymbol, none, symbol?, spelled?]
  | nextToken =>
    have same : onCursor Cursor.nextToken lexer = .ok .none lexer := by
      obtain ⟨⟨behind, ahead, position⟩, shown⟩ := lexer
      cases none
      simp only [onCursor, Cursor.nextToken_end]
    simp only [Action.take, Action.put, TokenSource.map_of_ok _ same, outcome]

theorem Ended.left (ended : lexer.Ended) (actions : List Action) : lexer.left actions = lexer := by
  induction actions with
  | nil => rfl
  | cons action actions ih =>
    show ((action.take lexer).2).left actions = lexer
    rw [ended.take action, ih]

/-- The token that is shown was read off the text in front of the cursor, so there are no more tokens to
come than the text has characters. -/
theorem Kept.bound_le (kept : lexer.Kept text start) : TokenSource.bound lexer ≤ text.length := by
  have split := kept.cursor.length_eq
  show lexer.cursor.ahead.length + lexer.shown.toList.length ≤ text.length
  cases shown : lexer.shown with
  | none => simp [← split]
  | some token =>
    obtain ⟨index, spelling, nonempty, inside, -⟩ := kept.shown token shown
    have positive := List.length_pos_iff.mpr nonempty
    simp only [Option.toList_some, List.length_singleton]
    omega

/-- Whatever was asked of a lexer before, and whether or not it failed, its scanners do what loops do that
read one character after another and fail where there is none; and they do not fail so, and never read
past the end. A token takes one character at least; without one the lexer is at the end of the text. Once
it has answered that there is no token, nothing moves it any more, and it keeps giving this answer. An
iteration ends after at most as many tokens as the text has characters. -/
theorem reading_ends (source : Text) (start : Position) (actions : List Action) :
    let lexer := (ofText source start).left actions
    (∀ rounds, lexer.cursor.ahead.length < rounds →
        Stepwise.nextToken rounds lexer.cursor = lexer.cursor.nextToken ∧
        Stepwise.skipSpace rounds lexer.cursor = .ok () lexer.cursor.skipSpace ∧
        Stepwise.readName rounds lexer.cursor = .ok lexer.cursor.readName.1 lexer.cursor.readName.2 ∧
        Stepwise.readSymbol lexer.cursor = .ok lexer.cursor.readSymbol.1 lexer.cursor.readSymbol.2) ∧
      (∀ place after, lexer.cursor.nextToken ≠ .error (.malformed .endOfText place) after) ∧
      (∀ token after, lexer.cursor.nextToken = .ok (some token) after →
        lexer.cursor.index < after.index) ∧
      (∀ after, lexer.cursor.nextToken = .ok none after → after.index = source.toList.length) ∧
      (∀ ended, TokenSource.peek lexer = .ok none ended ∨ TokenSource.next lexer = .ok none ended →
        (∀ later, ended.left later = ended) ∧ TokenSource.peek ended = .ok none ended ∧
          TokenSource.next ended = .ok none ended ∧ TokenSource.isDone ended = .ok true ended) ∧
      (TokenSource.collect lexer).1.length ≤ source.toList.length ∧
      ∀ count, source.toList.length < count →
        TokenSource.collectUpTo count lexer = TokenSource.collect lexer := by
  intro lexer
  have kept : lexer.Kept source.toList start := (kept_ofText source start).left actions
  obtain ⟨tokens, ending, feeds⟩ := exists_feeds lexer
  have fewer : tokens.length ≤ source.toList.length := Nat.le_trans feeds.length_le kept.bound_le
  refine ⟨?_, ?_, ?_, ?_, ?_, ?_, ?_⟩
  · exact fun rounds enough => ⟨Stepwise.nextToken_eq enough, Stepwise.skipSpace_eq enough,
      Stepwise.readName_eq enough, Stepwise.readSymbol_eq _⟩
  · exact fun place after failed => Cursor.nextToken_ne_endOfText failed place rfl
  · exact fun token after found => Cursor.index_lt_of_nextToken found
  · intro after found
    have next := lexer.cursor.next_nextToken
    rw [found] at next
    have moved : after.Kept source.toList start := (next.keeps kept.cursor).1
    have whole := moved.length_eq
    rwa [Cursor.ahead_of_nextToken_none found] at whole
  · intro ended answered
    have still : ended.Ended := answered.elim ended_of_peek ended_of_next
    exact ⟨still.left, still.peek, TokenSource.next_of_end still.peek, TokenSource.isDone_of_ok still.peek⟩
  · obtain ⟨after, collected, -⟩ := feeds.collect_eq
    rw [collected]
    exact fewer
  · intro count enough
    exact feeds.collectUpTo_enough (Nat.lt_of_le_of_lt fewer enough) (Nat.lt_succ_of_le feeds.length_le)

/-- A backslash is the last character of a quotation that is left open. Reading it fails, but does not
overrun the text, and leaves nothing. -/
theorem reading_ends_behind_backslash :
    let fresh := ofText "a\x22\\" ⟨1, 1⟩
    let broken := fresh.left [.query .next, .query .next]
    let word : Token := ⟨.identifier, .text "a", ⟨1, 1⟩, none⟩
    Stepwise.nextToken 4 fresh.cursor = .ok (some word) (fresh.cursor.skip 1) ∧
      fresh.cursor.index < (fresh.cursor.skip 1).index ∧
      Stepwise.nextToken 3 (fresh.cursor.skip 1) =
        .error (.malformed .unterminatedString ⟨1, 2⟩) broken.cursor ∧
      TokenSource.peek broken = .ok none broken ∧ (∀ later, broken.left later = broken) ∧
      (TokenSource.collect fresh).1.length ≤ 3 := by
  intro fresh broken word
  obtain ⟨stepwise, -, onward, -, -, few, -⟩ := reading_ends "a\x22\\" ⟨1, 1⟩ []
  obtain ⟨-, -, -, -, still, -, -⟩ := reading_ends "a\x22\\" ⟨1, 1⟩ [.query .next, .query .next]
  obtain ⟨stepwise', -⟩ := reading_ends "a\x22\\" ⟨1, 1⟩ [.query .next]
  have read : fresh.cursor.nextToken = .ok (some word) (fresh.cursor.skip 1) := rfl
  have peeked : TokenSource.peek broken = .ok none broken := rfl
  refine ⟨?_, onward _ _ read, ?_, peeked, (still broken (.inl peeked)).1, few⟩
  · exact (stepwise 4 (by decide)).1.trans read
  · exact (stepwise' 3 (by decide)).1.trans rfl

end Lexer

end StyleExpr
