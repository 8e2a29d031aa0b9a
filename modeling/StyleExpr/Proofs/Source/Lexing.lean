import StyleExpr.Proofs.Lexeme.Written
import StyleExpr.Proofs.Source.Feed
import StyleExpr.Source.Lexer

/-! Lexers keep the laws of looking. The tokens that a lexer gives are told by the text alone, as the
lexemes that the text is made of, and every one of them was scanned off some text. -/

namespace StyleExpr

open Lexeme

def Token.lexeme (token : Token) : Lexeme :=
  ⟨token.kind, token.value, token.unit⟩

@[simp] theorem lexeme_tokenAt (lexeme : Lexeme) (position : Position) :
    (lexeme.tokenAt position).lexeme = lexeme := rfl

namespace Lexeme

variable {c : CodePoint} {rest : List CodePoint} {lexeme : Lexeme}

/-- A fixed spelling that is found is the first two characters, or else the first one. -/
theorem symbol?_cases {text front : List CodePoint} {kind : TokenKind}
    (found : symbol? text = some (front, kind)) :
    spelled? front = some kind ∧
      (front = text.take 2 ∨ front = text.take 1 ∧ spelled? (text.take 2) = none) := by
  simp only [symbol?] at found
  cases double : spelled? (text.take 2) with
  | some _ =>
    rw [double] at found
    cases found
    exact ⟨double, .inl rfl⟩
  | none =>
    cases single : spelled? (text.take 1) with
    | some _ =>
      rw [double, single] at found
      cases found
      exact ⟨single, .inr ⟨rfl, rfl⟩⟩
    | none =>
      rw [double, single] at found
      cases found

theorem spelled?_of_symbol? {text front : List CodePoint} {kind : TokenKind}
    (found : symbol? text = some (front, kind)) : spelled? front = some kind :=
  (symbol?_cases found).1

theorem isPrefix_of_symbol? {text front : List CodePoint} {kind : TokenKind}
    (found : symbol? text = some (front, kind)) : front <+: text := by
  rcases (symbol?_cases found).2 with rfl | ⟨rfl, -⟩ <;> exact List.take_prefix ..

theorem numberParts_length_pos (start : Text.isDigit c = true ∨ c = scalar '.' ∧
    startsWith Text.isDigit rest = true) : 0 < (numberParts (c :: rest)).length := by
  rcases start with digit | ⟨rfl, begins⟩
  · simp only [numberParts, NumberParts.length, List.takeWhile_cons, digit, ↓reduceIte, List.length_cons]
    omega
  · have point : Text.isDigit (scalar '.') = false := by decide
    cases rest with
    | nil => cases begins
    | cons d rest =>
      have digit : Text.isDigit d = true := begins
      simp only [numberParts, NumberParts.length, List.takeWhile_cons, fractionChars, point, digit,
        Bool.false_eq_true, ↓reduceIte, List.length_nil, List.drop_zero, List.isEmpty_cons, List.length_cons]
      omega

theorem scan_length_pos (found : (scan c rest).found = .ok lexeme) : 0 < (scan c rest).length := by
  have choice := chosen c rest
  revert found
  generalize scan c rest = taken at choice
  intro found
  cases choice with
  | name start =>
    have member := Text.isWord_of_startsName start
    simp [scanName, nameChars, nameFront_word false member]
  | reference | color => exact Nat.succ_pos _
  | number start => exact numberParts_length_pos start
  | quotation =>
    unfold scanQuotation
    split <;> exact Nat.succ_pos _
  | symbol =>
    cases read : scanSymbol (c :: rest) with
    | none =>
      rw [read] at found
      cases found
    | some taken =>
      obtain ⟨⟨front, kind⟩, hit, rfl⟩ := Option.map_eq_some_iff.mp read
      have spelled := spelled?_of_symbol? hit
      cases front with
      | nil => cases spelled
      | cons => exact Nat.succ_pos _

end Lexeme

namespace Cursor

variable {cursor : Cursor} {c : CodePoint} {rest : List CodePoint}

@[simp] theorem skip_zero (cursor : Cursor) : cursor.skip 0 = cursor := by
  simp [skip]

theorem skip_succ (behind : List CodePoint) (position : Position) (count : Nat) :
    (⟨behind, c :: rest, position⟩ : Cursor).skip (count + 1) =
      (⟨c :: behind, rest, position.after c⟩ : Cursor).skip count := by
  simp [skip]

theorem skipSpace_solid (solid : ∀ c ∈ cursor.ahead.head?, isSpace c = false) :
    cursor.skipSpace = cursor := by
  obtain ⟨behind, ahead, position⟩ := cursor
  cases ahead with
  | nil => simp [skipSpace]
  | cons c rest => simp [skipSpace, solid c rfl]

theorem nextToken_end (behind : List CodePoint) (position : Position) :
    (⟨behind, [], position⟩ : Cursor).nextToken = .ok none ⟨behind, [], position⟩ := by
  simp [nextToken, skipSpace]

theorem nextToken_blank (blank : isSpace c = true) (behind : List CodePoint) (position : Position) :
    (⟨behind, c :: rest, position⟩ : Cursor).nextToken =
      (⟨c :: behind, rest, position.after c⟩ : Cursor).nextToken := by
  have skipped : (⟨behind, c :: rest, position⟩ : Cursor).skipSpace =
      (⟨c :: behind, rest, position.after c⟩ : Cursor).skipSpace := by
    simp [skipSpace, blank, skip_succ]
  rw [nextToken, nextToken, skipped]

theorem nextToken_reads {front : List CodePoint} {lexeme : Lexeme} (reads : Reads front rest lexeme)
    (behind : List CodePoint) (position : Position) :
    (⟨behind, front ++ rest, position⟩ : Cursor).nextToken =
      .ok (some (lexeme.tokenAt position))
        ⟨front.reverse ++ behind, rest, position.afterAll front⟩ := by
  obtain ⟨c, back, rfl, solid, scanned⟩ := reads
  have still : (⟨behind, c :: (back ++ rest), position⟩ : Cursor).skipSpace = _ :=
    skipSpace_solid (by simpa using solid)
  rw [List.cons_append, nextToken, still]
  simp [scanned, skip]

inductive Next (cursor : Cursor) : EStateM.Result Fault Cursor (Option Token) → Prop where
  | finish (ended : cursor.skipSpace.ahead = []) : Next cursor (.ok none cursor.skipSpace)
  | token {c : CodePoint} {rest : List CodePoint} {lexeme : Lexeme}
      (ahead : cursor.skipSpace.ahead = c :: rest)
      (found : (scan c rest).found = .ok lexeme) :
      Next cursor (.ok (some (lexeme.tokenAt cursor.skipSpace.position))
        (cursor.skipSpace.skip (scan c rest).length))
  | flaw {c : CodePoint} {rest : List CodePoint} {flaw : Flaw} (ahead : cursor.skipSpace.ahead = c :: rest)
      (found : (scan c rest).found = .error flaw) :
      Next cursor (.error (flaw.faultAt cursor.skipSpace.position)
        (cursor.skipSpace.skip (scan c rest).length))

theorem next_nextToken (cursor : Cursor) : cursor.Next cursor.nextToken := by
  unfold nextToken
  cases ahead : cursor.skipSpace.ahead with
  | nil =>
    simp only [ahead]
    exact .finish ahead
  | cons c rest =>
    cases found : (scan c rest).found with
    | ok lexeme =>
      simp only [ahead, found]
      exact .token ahead found
    | error flaw =>
      simp only [ahead, found]
      exact .flaw ahead found

theorem length_skipSpace (cursor : Cursor) :
    cursor.skipSpace.ahead.length ≤ cursor.ahead.length := by
  simp [skipSpace, skip]

theorem length_nextToken {after : Cursor} {token : Token}
    (found : cursor.nextToken = .ok (some token) after) :
    after.ahead.length < cursor.ahead.length := by
  have next := cursor.next_nextToken
  rw [found] at next
  cases next with
  | @token c rest lexeme ahead scanned =>
    have positive := scan_length_pos scanned
    have shorter := cursor.length_skipSpace
    rw [ahead, List.length_cons] at shorter
    simp [skip, ahead]
    omega

/-- At the end there is nothing more to skip. -/
theorem nextToken_again {after : Cursor} (found : cursor.nextToken = .ok none after) :
    after.nextToken = .ok none after := by
  have next := cursor.next_nextToken
  rw [found] at next
  cases next with
  | finish ended =>
    revert ended
    generalize cursor.skipSpace = after
    intro ended
    obtain ⟨behind, ahead, position⟩ := after
    cases ended
    exact nextToken_end behind position

end Cursor

namespace Lexer

theorem peek_shown {cursor : Cursor} (token : Token) :
    TokenSource.peek (⟨cursor, some token⟩ : Lexer) = .ok (some token) ⟨cursor, some token⟩ := rfl

theorem peek_ok {cursor after : Cursor} {token : Option Token}
    (found : cursor.nextToken = .ok token after) :
    TokenSource.peek (⟨cursor, none⟩ : Lexer) = .ok token ⟨after, token⟩ := by
  simp only [TokenSource.peek, peek, found]

theorem peek_error {cursor after : Cursor} {fault : Fault}
    (found : cursor.nextToken = .error fault after) :
    TokenSource.peek (⟨cursor, none⟩ : Lexer) = .error fault ⟨after, none⟩ := by
  simp only [TokenSource.peek, peek, found]

theorem peek_blank {c : CodePoint} {rest : List CodePoint} (space : isSpace c = true)
    (behind : List CodePoint)
    (position : Position) :
    TokenSource.peek (⟨⟨behind, c :: rest, position⟩, none⟩ : Lexer) =
      TokenSource.peek (⟨⟨c :: behind, rest, position.after c⟩, none⟩ : Lexer) := by
  simp only [TokenSource.peek, peek, Cursor.nextToken_blank space]

theorem peek_cases {lexer after : Lexer} {token : Option Token}
    (looked : TokenSource.peek lexer = .ok token after) :
    (∃ head, lexer.shown = some head ∧ token = some head ∧ after = lexer) ∨
      ∃ cursor, lexer.cursor.nextToken = .ok token cursor ∧ after = ⟨cursor, token⟩ := by
  obtain ⟨cursor, shown⟩ := lexer
  cases shown with
  | some head =>
    cases looked
    exact .inl ⟨head, rfl, rfl, rfl⟩
  | none =>
    cases found : cursor.nextToken with
    | error fault behind =>
      rw [peek_error found] at looked
      cases looked
    | ok token' behind =>
      rw [peek_ok found] at looked
      cases looked
      exact .inr ⟨behind, rfl, rfl⟩

/-- Looking fails only where no token was read ahead. -/
theorem peek_fault_cases {lexer after : Lexer} {fault : Fault}
    (looked : TokenSource.peek lexer = .error fault after) :
    lexer.shown = none ∧ ∃ cursor, lexer.cursor.nextToken = .error fault cursor ∧ after = ⟨cursor, none⟩ := by
  obtain ⟨cursor, shown⟩ := lexer
  cases shown with
  | some head => cases looked
  | none =>
    cases found : cursor.nextToken with
    | ok token behind =>
      rw [peek_ok found] at looked
      cases looked
    | error fault' behind =>
      rw [peek_error found] at looked
      cases looked
      exact ⟨rfl, behind, rfl, rfl⟩

/-- Nothing is shown only at the end of the text. -/
theorem ahead_of_peek_none {lexer after : Lexer} (looked : TokenSource.peek lexer = .ok none after) :
    after.cursor.ahead = [] := by
  rcases peek_cases looked with ⟨head, -, shown, -⟩ | ⟨cursor, found, rfl⟩
  · cases shown
  · have next := lexer.cursor.next_nextToken
    rw [found] at next
    cases next with
    | finish ended => exact ended

end Lexer

instance : LawfulSource Lexer where
  peek_again := by
    intro lexer after token looked
    rcases Lexer.peek_cases looked with ⟨head, -, -, rfl⟩ | ⟨cursor, found, rfl⟩
    · exact looked
    · cases token with
      | some token => exact Lexer.peek_shown token
      | none => exact Lexer.peek_ok (Cursor.nextToken_again found)
  bound_drop := by
    rintro lexer after token looked
    rcases Lexer.peek_cases looked with ⟨head, shown, -, rfl⟩ | ⟨cursor, found, rfl⟩
    · simp [TokenSource.bound, TokenSource.drop, shown]
    · have shorter := Cursor.length_nextToken found
      simp only [TokenSource.bound, TokenSource.drop, Option.toList_none, List.length_nil]
      omega

/-- `Lexes text lexemes`: the text is made of the lexemes, with blanks between them. -/
inductive Lexes : List CodePoint → List Lexeme → Prop where
  | finish : Lexes [] []
  | blank {c : CodePoint} {rest : List CodePoint} {lexemes : List Lexeme} (space : isSpace c = true)
      (others : Lexes rest lexemes) : Lexes (c :: rest) lexemes
  | lexeme {front rest : List CodePoint} {lexeme : Lexeme} {lexemes : List Lexeme}
      (reads : Reads front rest lexeme) (others : Lexes rest lexemes) :
      Lexes (front ++ rest) (lexeme :: lexemes)

theorem Feeds.of_peek_eq {σ : Type} [TokenSource σ] {source source' : σ} {tokens : List Token}
    {ending : Except Fault Position} (same : TokenSource.peek source = TokenSource.peek source')
    (feeds : Feeds source' tokens ending) : Feeds source tokens ending := by
  cases feeds with
  | finish looked => exact .finish (same.trans looked)
  | broken looked => exact .broken (same.trans looked)
  | token looked rest => exact .token (same.trans looked) rest

theorem Lexes.feeds {text : List CodePoint} {lexemes : List Lexeme} (lexes : Lexes text lexemes)
    (behind : List CodePoint) (position : Position) :
    ∃ tokens ending, tokens.map Token.lexeme = lexemes ∧
      Feeds (⟨⟨behind, text, position⟩, none⟩ : Lexer) tokens (.ok ending) := by
  induction lexes generalizing behind position with
  | finish =>
    exact ⟨[], _, rfl, .finish (Lexer.peek_ok (Cursor.nextToken_end behind position))⟩
  | @blank c rest lexemes space others ih =>
    obtain ⟨tokens, ending, same, feeds⟩ := ih (c :: behind) (position.after c)
    exact ⟨tokens, ending, same, feeds.of_peek_eq (Lexer.peek_blank space behind position)⟩
  | @lexeme front rest lexeme lexemes reads others ih =>
    obtain ⟨tokens, ending, same, feeds⟩ := ih (front.reverse ++ behind) (position.afterAll front)
    have looked := Lexer.peek_ok (Cursor.nextToken_reads reads behind position)
    exact ⟨_ :: tokens, ending, by rw [List.map_cons, same, lexeme_tokenAt], .token looked feeds⟩

def Lexeme.Scanned (lexeme : Lexeme) : Prop :=
  ∃ c rest, (scan c rest).found = .ok lexeme

theorem Lexer.scanned_of_peek {lexer after : Lexer} {token : Token}
    (shown : ∀ token ∈ lexer.shown, token.lexeme.Scanned)
    (looked : TokenSource.peek lexer = .ok (some token) after) : token.lexeme.Scanned := by
  rcases peek_cases looked with ⟨head, showing, same, -⟩ | ⟨cursor, found, -⟩
  · cases same
    exact shown token showing
  · have next := lexer.cursor.next_nextToken
    rw [found] at next
    cases next with
    | token ahead scanned => exact ⟨_, _, scanned⟩

theorem Feeds.scanned {lexer : Lexer} {tokens : List Token} {ending : Except Fault Position}
    (feeds : Feeds lexer tokens ending) (shown : ∀ token ∈ lexer.shown, token.lexeme.Scanned) :
    ∀ token ∈ tokens, token.lexeme.Scanned := by
  induction feeds with
  | finish | broken => simp
  | token looked rest ih =>
    intro other member
    rcases List.mem_cons.mp member with rfl | later
    · exact Lexer.scanned_of_peek shown looked
    · exact ih (by simp [TokenSource.drop]) other later

end StyleExpr
