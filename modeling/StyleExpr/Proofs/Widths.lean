import StyleExpr.Proofs.Grammar.Placing
import StyleExpr.Proofs.Lexeme.Width
import StyleExpr.Proofs.Source.Ascending

/-! The part of a source that a token spans, and the width of the token. Where the last token is as wide as
its span, a list of the tokens ends at the place where the lexer ends, and is read as the source is. -/

namespace StyleExpr

open Lexeme

/-- The token stands in a source whose first character is at `start`: the lexer in front of its place takes
`spelling` for it and leaves `rest`. -/
def Token.Spans (source : List CodePoint) (start : Position) (token : Token)
    (spelling rest : List CodePoint) :
    Prop :=
  ∃ before, source = before ++ (spelling ++ rest) ∧ token.position = start.afterAll before ∧
    (⟨before.reverse, spelling ++ rest, start.afterAll before⟩ : Cursor).nextToken =
      .ok (some token)
        ⟨spelling.reverse ++ before.reverse, rest, start.afterAll (before ++ spelling)⟩

variable {source before front spelling rest : List CodePoint} {start place : Position} {token last : Token}
variable {tokens : List Token} {lexeme : Lexeme}

/-- Only an empty text leaves the place. -/
theorem Position.eq_nil_of_afterAll {text : List CodePoint} (still : place.afterAll text = place) :
    text = [] := by
  cases text with
  | nil => rfl
  | cons c text =>
    have onward := lt_afterAll (List.cons_ne_nil c text) place
    rw [still, lt_iff] at onward
    omega

theorem Lexeme.Reads.spans (reads : Reads spelling rest lexeme) :
    (lexeme.tokenAt (start.afterAll before)).Spans (before ++ (spelling ++ rest)) start spelling rest := by
  refine ⟨before, rfl, rfl, ?_⟩
  rw [Position.afterAll_append]
  exact Cursor.nextToken_reads reads _ _

theorem Token.Spans.reads (spans : token.Spans source start spelling rest) :
    ∃ lexeme, Reads spelling rest lexeme ∧ token = lexeme.tokenAt token.position := by
  obtain ⟨before, rfl, place, found⟩ := spans
  obtain ⟨blanks, spelling', rest', lexeme, split, space, reads, rfl, ahead, -⟩ :=
    Cursor.nextToken_token found
  obtain rfl := Position.eq_nil_of_afterAll place
  obtain rfl : rest = rest' := ahead
  obtain rfl : spelling = spelling' := List.append_cancel_right split
  exact ⟨lexeme, reads, rfl⟩

theorem Tokenizes.spans (tokenizes : Tokenizes rest place front tokens)
    (placed : place = start.afterAll before) :
    ∀ token ∈ tokens, ∃ spelling behind,
      token.Spans (before ++ (front ++ rest)) start spelling behind := by
  induction tokenizes generalizing before with
  | finish => simp
  | @blank place c front tokens space _ ih =>
    have onward : place.after c = start.afterAll (before ++ [c]) := by
      rw [placed, Position.afterAll_append]
      rfl
    simpa using ih onward
  | @token place spelling front lexeme tokens reads _ ih =>
    have onward : place.afterAll spelling = start.afterAll (before ++ spelling) := by
      rw [placed, Position.afterAll_append]
    have others := ih onward
    rw [List.append_assoc, ← List.append_assoc spelling] at others
    refine List.forall_mem_cons.mpr ⟨⟨spelling, front ++ rest, ?_⟩, others⟩
    rw [placed, List.append_assoc]
    exact reads.spans

theorem spans_of_mem_collect {source : Text}
    (given : token ∈ (TokenSource.collect (Lexer.ofText source start)).1) :
    ∃ spelling rest, token.Spans source.toList start spelling rest := by
  obtain ⟨tokens, ending, transcript⟩ := exists_transcript source.toList start
  have feeds : Feeds (Lexer.ofText source start) tokens ending := transcript.feeds []
  obtain ⟨after, collected, -⟩ := feeds.collect_eq
  rw [collected] at given
  obtain ⟨before, rest, split, tokenizes, -⟩ := transcript
  have spans := tokenizes.spans (start.afterAll_nil).symm token given
  rwa [List.nil_append, ← split] at spans

theorem Token.Spans.width_eq (spans : token.Spans source start spelling rest)
    (measurable : Measurable token.kind spelling) : token.width = .ok spelling.length := by
  obtain ⟨lexeme, reads, same⟩ := spans.reads
  rw [same] at measurable ⊢
  exact reads.width_eq measurable

theorem Token.Spans.width_lt (spans : token.Spans source start spelling rest)
    (string : token.kind = .string) (slash : scalar '\\' ∈ spelling) :
    ∃ width < spelling.length, token.width = .ok width := by
  obtain ⟨lexeme, reads, same⟩ := spans.reads
  rw [same] at string ⊢
  exact reads.width_lt string slash

/-- A list of tokens ends where the source ends, if its last token spans the end of the source. -/
theorem Token.Spans.endOf_eq (spans : last.Spans source start spelling [])
    (measurable : Measurable last.kind spelling) (single : scalar '\n' ∉ spelling)
    (lasting : tokens.getLast? = some last) :
    StoredTokens.endOf tokens none none = .ok (start.afterAll source) := by
  have width := spans.width_eq measurable
  obtain ⟨before, rfl, place, -⟩ := spans
  rw [List.append_nil, Position.afterAll_append, ← place, Position.afterAll_of_single _ single]
  simp only [StoredTokens.endOf, lasting, width]
  rfl

/-- Every token that a lexer gives spans a part of the source. A token with a measurable spelling is as wide
as its span, and a text with backslashes is narrower. So where the last token is measurable, of one line and
not followed by anything, a list of the tokens ends where the lexer ends, and what is read off the list is
what is read off the source, warnings and places included. -/
theorem width_of_span (source : Text) (start : Position) :
    (∀ token ∈ (TokenSource.collect (Lexer.ofText source start)).1,
      ∃ spelling rest, token.Spans source.toList start spelling rest) ∧
    (∀ (token : Token) (spelling rest : List CodePoint), token.Spans source.toList start spelling rest →
      (Measurable token.kind spelling → token.width = .ok spelling.length) ∧
      (token.kind = .string → scalar '\\' ∈ spelling → ∃ width < spelling.length, token.width = .ok width)) ∧
    ∀ (tokens : List Token) (last : Token) (spelling : List CodePoint), tokenize source start = .ok tokens →
      tokens.getLast? = some last → last.Spans source.toList start spelling [] →
      Measurable last.kind spelling → scalar '\n' ∉ spelling →
      ∃ lexer stored, TokenSource.drain (Lexer.ofText source start) = .ok tokens lexer ∧
        StoredTokens.ofList tokens none none = .ok stored ∧
        TokenSource.ending stored = TokenSource.ending lexer ∧
        (Reading.ofSource stored).1 = (Reading.ofText source start).1 := by
  refine ⟨fun token given => spans_of_mem_collect given, ?_, ?_⟩
  · intro token spelling rest spans
    exact ⟨spans.width_eq, spans.width_lt⟩
  · intro tokens last spelling tokenized lasting spans measurable single
    have feeds := feeds_of_tokenize tokenized
    obtain ⟨lexer, drained, ended⟩ := feeds.drain_eq
    have stored := StoredTokens.feeds 0 tokens (start.afterAll source.toList)
    refine ⟨lexer, _, drained, ?_, ended.symm, stored.reading_eq.trans feeds.reading_eq.symm⟩
    rw [StoredTokens.ofList, spans.endOf_eq measurable single lasting]
    rfl

/-- A quote that is escaped, a number with a unit, and a parenthesis that is left open: the end is told
behind the number. -/
theorem width_of_span_left_open :
    let text : Token := ⟨.string, .text "\x22", ⟨1, 2⟩, none⟩
    let last : Token := ⟨.number, .int 10, ⟨1, 7⟩, some "px"⟩
    let source : Text := "(\x22\\\x22\x22 10px"
    last.Spans source.toList ⟨1, 1⟩ (Text.ofString "10px").toList [] ∧
      Measurable .number (Text.ofString "10px").toList ∧
      last.width = .ok 4 ∧ (∃ width < 4, text.width = .ok width) ∧
      ∃ tokens stored, tokenize source ⟨1, 1⟩ = .ok tokens ∧
        StoredTokens.ofList tokens none none = .ok stored ∧
        TokenSource.ending stored = (⟨1, 11⟩ : Position) ∧
        (Reading.ofSource stored).1 = (Reading.ofText source ⟨1, 1⟩).1 := by
  have tokenized : tokenize "(\x22\\\x22\x22 10px" ⟨1, 1⟩ =
      .ok [⟨.openParen, .text "(", ⟨1, 1⟩, none⟩, ⟨.string, .text "\x22", ⟨1, 2⟩, none⟩,
        ⟨.number, .int 10, ⟨1, 7⟩, some "px"⟩] := by
    rfl
  intro text last source
  have behind : last.Spans source.toList ⟨1, 1⟩ (Text.ofString "10px").toList [] :=
    ⟨['(', '\x22', '\\', '\x22', '\x22', ' '], by decide, rfl, rfl⟩
  have escaped : text.Spans source.toList ⟨1, 1⟩ (Text.ofString "\x22\\\x22\x22").toList
      (Text.ofString " 10px").toList :=
    ⟨[scalar '('], by decide, rfl, rfl⟩
  have trimmed : Trimmed [scalar '1', scalar '0'] := ⟨by decide, plain_digits 10, by simp⟩
  have measurable : Measurable .number (Text.ofString "10px").toList :=
    .number trimmed (.inr (.letters (by decide) (List.all_eq_true.mp (by decide))))
  obtain ⟨-, widths, readings⟩ := width_of_span source ⟨1, 1⟩
  obtain ⟨lexer, stored, drained, listed, ended, same⟩ :=
    readings _ last _ tokenized rfl behind measurable (by decide)
  refine ⟨behind, measurable, (widths _ _ _ behind).1 measurable, (widths _ _ _ escaped).2 rfl (by decide),
    _, stored, tokenized, listed, ?_, same⟩
  cases listed
  rfl

end StyleExpr
