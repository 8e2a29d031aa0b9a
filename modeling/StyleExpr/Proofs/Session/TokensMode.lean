import StyleExpr.Proofs.Grammar.Placing
import StyleExpr.Proofs.Grammar.Remainder
import StyleExpr.Proofs.Source.Transcript
import StyleExpr.Session

/-! What tokens mode adds to a session. With it a line is lexed twice, once into a list whose end the
session computes itself; the list has the feed of the lexer, so nothing else that is shown changes. -/

namespace StyleExpr.Session

open Text (line lines)

section Source

variable {σ τ : Type} [TokenSource σ] [TokenSource τ] [LawfulSource σ] [LawfulSource τ]
variable {source : σ} {other : τ} {tokens : List Token} {ending : Except Fault Position}

/-- What a session shows of a reading depends on the feed of its source only. -/
theorem readingText_eq (verbose : Bool) (feeds : Feeds source tokens ending)
    (feeds' : Feeds other tokens ending) :
    readingText verbose source = readingText verbose other := by
  have same := feeds.reading_eq.trans feeds'.reading_eq.symm
  unfold readingText
  cases read : Reading.ofSource source with
  | mk reading left =>
    cases read' : Reading.ofSource other with
    | mk reading' left' =>
      rw [read, read'] at same
      obtain rfl : reading = reading' := same
      obtain ⟨outcome, warnings⟩ := reading
      cases outcome with
      | error fault => rfl
      | ok expr =>
        have shown := Reading.peek_of_ofSource feeds read
        have shown' := Reading.peek_of_ofSource feeds' read'
        have noted : leftoverNote left = leftoverNote left' := by
          simp only [leftoverNote, shown, shown']
          cases (fromStray 0 tokens).head? <;> rfl
        simp only [exprText, noted]

end Source

/-- The place that a session computes for the end of a line is the one behind its text. -/
theorem afterAll_line (number : Nat) {text : Text} (single : scalar '\n' ∉ text.toList) :
    Position.afterAll ⟨number, 1⟩ text.toList = ⟨number, text.length + 1⟩ := by
  rw [Position.afterAll_of_single _ single, Text.length_toList, Int.add_comm]

variable {text : Text}

end StyleExpr.Session
