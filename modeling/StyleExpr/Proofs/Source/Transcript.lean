import StyleExpr.Proofs.Source.Approach

/-! What a whole text is made of. A lexer in front of a text gives the tokens that stand in it, up to its
end or up to the first lexeme at fault. -/

namespace StyleExpr

open Lexeme

variable {text rest before blanks : List CodePoint} {place : Position} {tokens : List Token}
variable {ending : Except Fault Position} {fault : Fault}

/-- How a lexer ends in front of what is left of its text, whose place is given. -/
inductive Leaves : List CodePoint → Position → Except Fault Position → Prop where
  | finish {place : Position} : Leaves [] place (.ok place)
  | flaw {rest front : List CodePoint} {place : Position} {flaw : Flaw}
      (solid : startsWith isSpace rest = false) (lexical : Lexical rest front (.error flaw)) :
      Leaves rest place (.error (flaw.faultAt place))

/-- `Transcript text place tokens ending`: the text, which begins at the given place, is made of the
tokens, and ends so behind them. -/
def Transcript (text : List CodePoint) (place : Position) (tokens : List Token)
    (ending : Except Fault Position) : Prop :=
  ∃ before rest, text = before ++ rest ∧ Tokenizes rest place before tokens ∧
    Leaves rest (place.afterAll before) ending

theorem Transcript.skip (space : Run isSpace blanks)
    (transcript : Transcript text (place.afterAll blanks) tokens ending) :
    Transcript (blanks ++ text) place tokens ending := by
  obtain ⟨before, rest, rfl, tokenizes, leaves⟩ := transcript
  refine ⟨blanks ++ before, rest, (List.append_assoc ..).symm, tokenizes.skip space, ?_⟩
  rwa [Position.afterAll_append]

theorem Transcript.token {spelling : List CodePoint} {lexeme : Lexeme} (reads : Reads spelling text lexeme)
    (transcript : Transcript text (place.afterAll spelling) tokens ending) :
    Transcript (spelling ++ text) place (lexeme.tokenAt place :: tokens) ending := by
  obtain ⟨before, rest, rfl, tokenizes, leaves⟩ := transcript
  refine ⟨spelling ++ before, rest, (List.append_assoc ..).symm, .token reads tokenizes, ?_⟩
  rwa [Position.afterAll_append]

theorem longest_run_nil {isMember : CodePoint → Bool} (outside : startsWith isMember text = false) :
    Longest (Run isMember) text [] := by
  have longest := longest_takeWhile isMember text
  cases text with
  | nil => exact longest
  | cons c text =>
    have other : isMember c = false := outside
    rwa [List.takeWhile_cons, other] at longest

/-- What reading a token comes to where the text ends behind blanks, or a lexeme is at fault there. -/
theorem Cursor.Takes.transcript_of_end {cursor after : Cursor}
    (takes : cursor.Takes (.ok none after)) :
    Transcript cursor.ahead cursor.position [] (.ok after.position) := by
  cases takes with
  | finish blank =>
    refine ⟨cursor.ahead, [], (List.append_nil _).symm, .of_blank blank, ?_⟩
    rw [Cursor.skip, List.take_length]
    exact .finish

theorem Cursor.Takes.transcript_of_fault {cursor after : Cursor}
    (takes : cursor.Takes (.error fault after)) :
    Transcript cursor.ahead cursor.position [] (.error fault) := by
  cases takes with
  | @flaw blanks text front flaw space split lexical =>
    rw [split]
    refine .skip space.formed ⟨[], text, rfl, .finish, .flaw ?_ lexical⟩
    obtain ⟨c, text, rfl⟩ := List.exists_cons_of_ne_nil lexical.ne_nil
    exact space.outside split

theorem Feeds.transcript {lexer : Lexer} (feeds : Feeds lexer tokens ending)
    (fresh : lexer.shown = none) :
    Transcript lexer.cursor.ahead lexer.cursor.position tokens ending := by
  induction feeds with
  | finish looked =>
    rcases Lexer.peek_cases looked with ⟨head, shown, -⟩ | ⟨cursor, found, rfl⟩
    · rw [fresh] at shown
      cases shown
    · exact (Cursor.takes_of_nextToken_eq found).transcript_of_end
  | broken looked =>
    obtain ⟨-, cursor, found, -⟩ := Lexer.peek_fault_cases looked
    exact (Cursor.takes_of_nextToken_eq found).transcript_of_fault
  | token looked others ih =>
    rcases Lexer.peek_cases looked with ⟨head, shown, -⟩ | ⟨cursor, found, rfl⟩
    · rw [fresh] at shown
      cases shown
    · obtain ⟨blanks, spelling, rest, lexeme, split, space, reads, rfl, ahead, position⟩ :=
        Cursor.nextToken_token found
      have transcript := ih rfl
      simp only [TokenSource.drop, ahead, position] at transcript
      rw [Position.afterAll_append] at transcript
      rw [split]
      exact (transcript.token reads).skip space

theorem Transcript.feeds (transcript : Transcript text place tokens ending) (back : List CodePoint) :
    Feeds (⟨⟨back, text, place⟩, none⟩ : Lexer) tokens ending := by
  obtain ⟨before, rest, rfl, tokenizes, leaves⟩ := transcript
  induction tokenizes generalizing back with
  | @finish place =>
    rw [List.nil_append]
    cases leaves with
    | finish =>
      exact .finish (Lexer.peek_ok (Cursor.nextToken_end back place))
    | flaw solid lexical =>
      have takes : (⟨back, rest, place⟩ : Cursor).Takes _ :=
        .flaw (longest_run_nil solid) (List.nil_append _).symm lexical
      exact .broken (Lexer.peek_error (Cursor.nextToken_eq_of_takes takes))
  | @blank place c front tokens space _ ih =>
    exact (ih (c :: back) leaves).of_peek_eq (Lexer.peek_blank space back place)
  | @token place spelling front lexeme tokens reads _ ih =>
    rw [Position.afterAll_append] at leaves
    have looked := Lexer.peek_ok (Cursor.nextToken_reads reads back place)
    rw [List.append_assoc]
    exact .token looked (ih (spelling.reverse ++ back) leaves)

theorem Feeds.tokenize_eq {source : Text} (feeds : Feeds (Lexer.ofText source place) tokens ending) :
    tokenize source place = ending.map fun _ => tokens := by
  obtain ⟨after, collected, -⟩ := feeds.collect_eq
  simp only [tokenize, TokenSource.drain, collected]
  cases ending <;> rfl

theorem Transcript.tokenize_eq {source : Text}
    (transcript : Transcript source.toList place tokens ending) :
    tokenize source place = ending.map fun _ => tokens := by
  have feeds : Feeds (Lexer.ofText source place) tokens ending := transcript.feeds []
  exact feeds.tokenize_eq

theorem exists_transcript (text : List CodePoint) (place : Position) :
    ∃ tokens ending, Transcript text place tokens ending := by
  obtain ⟨tokens, ending, feeds⟩ := exists_feeds (⟨⟨[], text, place⟩, none⟩ : Lexer)
  exact ⟨tokens, ending, feeds.transcript rfl⟩

theorem tokenize_eq_ok_iff_tokenizes {source : Text} :
    tokenize source place = .ok tokens ↔ Tokenizes [] place source.toList tokens := by
  constructor
  · intro tokenized
    obtain ⟨tokens', ending, transcript⟩ := exists_transcript source.toList place
    rw [transcript.tokenize_eq] at tokenized
    cases ending with
    | error fault => cases tokenized
    | ok place =>
      cases tokenized
      obtain ⟨before, rest, split, tokenizes, leaves⟩ := transcript
      cases leaves
      rwa [split, List.append_nil]
  · intro tokenizes
    have transcript : Transcript source.toList place tokens (.ok (place.afterAll source.toList)) :=
      ⟨source.toList, [], (List.append_nil _).symm, tokenizes, .finish⟩
    exact transcript.tokenize_eq

theorem feeds_of_tokenize {source : Text} (tokenized : tokenize source place = .ok tokens) :
    Feeds (Lexer.ofText source place) tokens (.ok (place.afterAll source.toList)) := by
  have transcript : Transcript source.toList place tokens (.ok (place.afterAll source.toList)) :=
    ⟨_, [], (List.append_nil _).symm, tokenize_eq_ok_iff_tokenizes.mp tokenized, .finish⟩
  exact transcript.feeds []

end StyleExpr
