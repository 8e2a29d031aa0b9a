import StyleExpr.Proofs.Grammar.Placing
import StyleExpr.Proofs.RoundTrip
import StyleExpr.Proofs.Source.Transcript

/-! The place where a text begins. It shifts the places of all that is read off the text and changes
nothing else: the columns of the first line, and every line. -/

namespace StyleExpr

open Lexeme

/-- Where a position lies once a text begins at `start` that began at line 1 and column 1. -/
def Position.shifted (start position : Position) : Position :=
  if position.line = 1 then ⟨position.line + start.line - 1, position.column + start.column - 1⟩
  else ⟨position.line + start.line - 1, position.column⟩

/-- A change of places that carries the places behind a given one along with it. -/
def Carries (place : Position → Position) (position : Position) : Prop :=
  ∀ text, place (position.afterAll text) = (place position).afterAll text

variable {place : Position → Position} {position : Position} {rest front text : List CodePoint}
variable {tokens : List Token} {ending : Except Fault Position}

theorem Carries.afterAll (carries : Carries place position) (text : List CodePoint) :
    Carries place (position.afterAll text) := by
  intro more
  rw [← Position.afterAll_append, carries, carries, Position.afterAll_append]

theorem Carries.after (carries : Carries place position) (c : CodePoint) :
    Carries place (position.after c) ∧ place (position.after c) = (place position).after c :=
  ⟨carries.afterAll [c], carries [c]⟩

theorem Position.shifted_after {start position : Position} (line : 1 ≤ position.line) (c : CodePoint) :
    start.shifted (position.after c) = (start.shifted position).after c := by
  by_cases feed : c = scalar '\n'
  · have onward : position.line + 1 ≠ 1 := by omega
    by_cases first : position.line = 1
    · simp [shifted, Position.after, feed, first]
      omega
    · simp [shifted, Position.after, feed, first, onward]
      omega
  · by_cases first : position.line = 1
    · simp [shifted, Position.after, feed, first]
      omega
    · simp [shifted, Position.after, feed, first]

theorem Position.carries_shifted (start : Position) {position : Position} (line : 1 ≤ position.line) :
    Carries start.shifted position := by
  intro text
  induction text generalizing position with
  | nil => rfl
  | cons c text ih =>
    have onward := Int.le_trans line (position.line_le_after c)
    rw [Position.afterAll_cons, Position.afterAll_cons, ih onward, shifted_after line]

@[simp] theorem Position.shifted_first (start : Position) : start.shifted ⟨1, 1⟩ = start := by
  obtain ⟨line, column⟩ := start
  simp [shifted, Int.add_comm 1]

theorem Tokenizes.moved (tokenizes : Tokenizes rest position front tokens)
    (carries : Carries place position) :
    Tokenizes rest (place position) front (tokens.map (Token.moved place)) := by
  induction tokenizes with
  | finish => exact .finish
  | @blank _ c _ _ space _ ih =>
    obtain ⟨onward, same⟩ := carries.after c
    have others := ih onward
    rw [same] at others
    exact .blank space others
  | token reads _ ih =>
    have others := ih (carries.afterAll _)
    rw [carries] at others
    exact .token reads others

theorem Leaves.moved (leaves : Leaves rest position ending) :
    Leaves rest (place position) (movedResult place place ending) := by
  cases leaves with
  | finish => exact .finish
  | @flaw _ front _ flaw solid lexical =>
    have same : (flaw.faultAt position).moved place = flaw.faultAt (place position) := by
      cases flaw <;> rfl
    rw [movedResult_error, same]
    exact .flaw solid lexical

theorem Transcript.moved (transcript : Transcript text position tokens ending)
    (carries : Carries place position) :
    Transcript text (place position) (tokens.map (Token.moved place)) (movedResult place place ending) := by
  obtain ⟨before, rest, split, tokenizes, leaves⟩ := transcript
  refine ⟨before, rest, split, tokenizes.moved carries, ?_⟩
  rw [← carries]
  exact leaves.moved

theorem Fault.message_moved (fault : Fault) : (fault.moved place).message = fault.message := by
  cases fault <;> rfl

/-- The place where a text begins only shifts places. The same tokens and the same tree are read with the
same warnings, or reading fails for the same reason, and every place of a token, of a node or of a
fault is shifted. -/
theorem ofText_shifted (text : Text) (start : Position) :
    tokenize text start =
        movedResult start.shifted (List.map (Token.moved start.shifted)) (tokenize text ⟨1, 1⟩) ∧
      (Reading.ofText text start).1 = (Reading.ofText text ⟨1, 1⟩).1.moved start.shifted ∧
      (∀ expr, (Reading.ofText text ⟨1, 1⟩).1.outcome = .ok expr →
        (expr.moved start.shifted).same expr = true) ∧
      ∀ fault : Fault, (fault.moved start.shifted).message = fault.message := by
  obtain ⟨tokens, ending, transcript⟩ := exists_transcript text.toList ⟨1, 1⟩
  have shifted := transcript.moved (start.carries_shifted (Int.le_refl 1))
  rw [start.shifted_first] at shifted
  have feeds : Feeds (Lexer.ofText text ⟨1, 1⟩) tokens ending := transcript.feeds []
  have feeds' : Feeds (Lexer.ofText text start) _ _ := shifted.feeds []
  refine ⟨?_, ?_, ?_, Fault.message_moved⟩
  · rw [shifted.tokenize_eq, transcript.tokenize_eq]
    cases ending <;> rfl
  · rw [Reading.ofText, Reading.ofText, feeds.reading_eq, feeds'.reading_eq, ← Reading.ofSource_moved]
    rfl
  · intro expr accepted
    exact Expr.same_of_unplaced (Reading.wellFormed_of_ofText accepted) expr.unplaced_moved

/-- The lines of `1 +` and `2` are lines 10 and 11 of a text that begins in line 10. -/
theorem ofText_shifted_second_line :
    let sum : Expr := .binary (.literal .number (.int 1) none ⟨1, 1⟩)
      (.literal .number (.int 2) none ⟨2, 3⟩) .plus ⟨1, 1⟩
    let shifted : Expr := .binary (.literal .number (.int 1) none ⟨10, 4⟩)
      (.literal .number (.int 2) none ⟨11, 3⟩) .plus ⟨10, 4⟩
    (Reading.ofText "1 +\n  2" ⟨1, 1⟩).1 = ⟨.ok sum, []⟩ ∧
      (Reading.ofText "1 +\n  2" ⟨10, 4⟩).1 = ⟨.ok shifted, []⟩ ∧ shifted.same sum = true := by
  let one : Token := ⟨.number, .int 1, ⟨1, 1⟩, none⟩
  let plus : Token := ⟨.plus, .text "+", ⟨1, 3⟩, none⟩
  let two : Token := ⟨.number, .int 2, ⟨2, 3⟩, none⟩
  intro sum shifted
  have lexed : tokenize "1 +\n  2" ⟨1, 1⟩ = .ok [one, plus, two] := rfl
  have group : Phrase .additive false ([one] ++ plus :: [two]) sum :=
    .binary (.ofLiteral _ _ rfl) rfl (by decide) (.ofLiteral _ _ rfl)
  obtain ⟨lexer, read, -⟩ :=
    Reading.ofText_phrase (feeds_of_tokenize lexed) (group.loosen (by decide)) (Level.stops_nil _)
  have first : (Reading.ofText "1 +\n  2" ⟨1, 1⟩).1 = ⟨.ok sum, []⟩ := by
    rw [read]
    rfl
  obtain ⟨-, moved, same, -⟩ := ofText_shifted "1 +\n  2" ⟨10, 4⟩
  refine ⟨first, ?_, same sum (congrArg Reading.outcome first)⟩
  rw [moved, first]
  rfl

end StyleExpr
