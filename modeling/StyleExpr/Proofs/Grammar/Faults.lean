import StyleExpr.Proofs.Grammar.Placing
import StyleExpr.Proofs.Grammar.Unread

/-! Which faults a reading can come to. It meets the fault in which its tokens end exactly if these could
still become an expression, and fails at a token that cannot follow otherwise. -/

namespace StyleExpr

variable {tokens rest : List Token} {ending : Except Fault Position} {fault : Fault}

theorem Reading.outcome_ofSource {σ : Type} [TokenSource σ] {source : σ} :
    (ofSource source).1.outcome = match Parser.expression ⟨source, []⟩ with
      | .ok expr _ => .ok expr
      | .error fault _ => .error fault := by
  unfold ofSource Parser.ofSource
  cases Parser.expression (⟨source, []⟩ : Parser σ) <;> rfl

def Completable (tokens : List Token) : Prop :=
  ∃ more expr, Phrase .expression false (tokens ++ more) expr

/-- Behind an expression and a closing parenthesis, nothing makes an expression of it all. -/
theorem not_completable_of_closing {front : List Token} {token : Token} {expr : Expr}
    (phrase : Phrase .expression false front expr) (closes : token.kind = .closeParen) :
    ¬ Completable (front ++ token :: rest) := by
  rintro ⟨more, expr', complete⟩
  have balanced := complete.balanced 0 []
  rw [List.append_assoc, List.append_assoc, phrase.balanced, List.cons_append, fromStray_stray closes]
    at balanced
  cases balanced

/-- Tokens at one of which a parser failed cannot be completed. -/
theorem not_completable_of_failed {front : List Token} {token : Token} {said : List Text}
    (failed : Parser.expression (⟨⟨front ++ token :: rest, ending⟩, []⟩ : Parser Feed) =
      .error fault ⟨⟨token :: rest, ending⟩, said⟩) : ¬ Completable (front ++ token :: rest) := by
  rintro ⟨more, expr, phrase⟩
  have ran : Parser.expression (Parser.facing default (front ++ token :: rest ++ more ++ []) []) = _ :=
    expression_completes phrase (Level.stops_nil _)
  obtain ⟨behind, failed'⟩ := expression_error_shared failed (rest ++ more) (.ok default)
  rw [List.append_nil, List.append_assoc, List.cons_append, failed'] at ran
  cases ran

theorem Complaint.located (complaint : Complaint ending rest fault) :
    ∃ problem place, Outcome.nextPlace rest ending = .ok place ∧ fault = .malformed problem place := by
  rcases complaint with ⟨place, located, rfl⟩ | ⟨place, located, rfl⟩ <;> exact ⟨_, place, located, rfl⟩

/-- How reading fails: at a token that cannot follow, at the end, or with the fault in which the tokens
end. -/
inductive Feed.Fails (tokens : List Token) : Except Fault Position → Fault → Prop where
  | token {ending : Except Fault Position} {problem : Problem} {token : Token} (member : token ∈ tokens)
      (stuck : ¬ Completable tokens) : Fails tokens ending (.malformed problem token.position)
  | finish {place : Position} {problem : Problem} : Fails tokens (.ok place) (.malformed problem place)
  | met {fault : Fault} : Fails tokens (.error fault) fault

theorem Feed.fails {after : Parser Feed}
    (ran : Parser.expression (⟨⟨tokens, ending⟩, []⟩ : Parser Feed) = .error fault after) :
    Feed.Fails tokens ending fault := by
  have outcome : Outcome ending tokens [] _ _ _ := expression_outcome tokens []
  rw [ran] at outcome
  cases outcome with
  | broken met =>
    subst met
    exact .met
  | @failed front rest said _ split breaks =>
    subst split
    obtain ⟨problem, place, located, rfl⟩ := breaks.2.1.located
    cases rest with
    | nil =>
      subst located
      exact .finish
    | cons token rest =>
      cases located
      exact .token (List.mem_append_right _ (List.mem_cons_self ..)) (not_completable_of_failed ran)

section Source

variable {σ : Type} [TokenSource σ] [LawfulSource σ] {source : σ} (feeds : Feeds source tokens ending)
include feeds

theorem Feeds.fails (failed : (Reading.ofSource source).1.outcome = .error fault) :
    Feed.Fails tokens ending fault := by
  rw [feeds.reading_eq, Reading.outcome_ofSource] at failed
  cases ran : Parser.expression (⟨⟨tokens, ending⟩, []⟩ : Parser Feed) with
  | ok expr after =>
    rw [ran] at failed
    cases failed
  | error fault' after =>
    rw [ran] at failed
    cases failed
    exact Feed.fails ran

/-- A source that ends in a fault gives an expression only if a closing parenthesis comes before. -/
theorem Feeds.not_completable_of_read {met : Fault} {expr : Expr} (broken : ending = .error met)
    (read : (Reading.ofSource source).1.outcome = .ok expr) : ¬ Completable tokens := by
  rw [Reading.outcome_ofSource] at read
  cases ran : Parser.expression (⟨source, []⟩ : Parser σ) with
  | error fault after =>
    rw [ran] at read
    cases read
  | ok expr after =>
    obtain ⟨shown, settled⟩ := expression_settled feeds ran
    obtain ⟨front, rest, rfl, phrase, stops, left, -⟩ := expression_leaves feeds ran
    subst broken
    cases left with
    | broken looked =>
      rw [settled] at looked
      cases looked
    | token =>
      exact not_completable_of_closing phrase (Level.Stops.expression_iff.mp stops _ rfl)

/-- A fault that ends the tokens is met only behind tokens that can be completed. -/
theorem Feeds.completable_of_met {cause : NumeralFault}
    (failed : (Reading.ofSource source).1.outcome = .error (.numeral cause)) : Completable tokens := by
  rw [feeds.reading_eq, Reading.outcome_ofSource] at failed
  have outcome : Outcome (.ok default) tokens [] _ _ _ := expression_outcome tokens []
  cases ran : Parser.expression (Parser.facing default tokens []) with
  | ok expr after =>
    rw [ran] at outcome
    cases outcome with
    | @ok front rest said _ split completes =>
      subst split
      obtain ⟨phrase, stops, -⟩ := completes
      rw [stops.not_opens] at phrase
      cases rest with
      | nil => exact ⟨[], expr, by rwa [List.append_nil, List.append_nil]⟩
      | cons token rest =>
        rw [expression_ok_shared ran rest ending] at failed
        cases failed
  | error fault after =>
    rw [ran] at outcome
    cases outcome with
    | broken met => cases met
    | @failed front rest said _ split breaks =>
      subst split
      obtain ⟨viable, complaint, -⟩ := breaks
      cases rest with
      | nil =>
        obtain ⟨more, expr, phrase⟩ := viable false
        exact ⟨more, expr, by rwa [List.append_nil]⟩
      | cons token rest =>
        obtain ⟨behind, failed'⟩ := expression_error_shared ran rest ending
        obtain ⟨problem, place, -, rfl⟩ := complaint.located
        rw [failed'] at failed
        cases failed

/-- Reading meets a numeral at fault exactly if the tokens end in it and could become an expression. -/
theorem Feeds.numeral_iff {cause : NumeralFault} :
    (Reading.ofSource source).1.outcome = .error (.numeral cause) ↔
      ending = .error (.numeral cause) ∧ Completable tokens := by
  constructor
  · intro failed
    refine ⟨?_, feeds.completable_of_met failed⟩
    cases feeds.fails failed with
    | met => rfl
  · rintro ⟨met, completable⟩
    cases outcome : (Reading.ofSource source).1.outcome with
    | ok expr => exact absurd completable (feeds.not_completable_of_read met outcome)
    | error fault =>
      subst met
      cases feeds.fails outcome with
      | token _ stuck => exact absurd completable stuck
      | met => rfl

end Source

end StyleExpr
