import StyleExpr.Proofs.Grammar.Completeness

/-! Parsing stored tokens. What is accepted is exactly what the grammar tells, and a parser that fails
does so in front of the first token that no expression could go on with. -/

namespace StyleExpr

/-- What became of stored tokens: the front part that was taken is an expression and nothing goes on
with it, or it could have become an expression and what comes next cannot. -/
inductive StoredOutcome (tokens : List Token) (ending : Position) :
    EStateM.Result Fault (Parser StoredTokens) Expr → Prop where
  | accepted (split : tokens = front ++ rest) (phrase : Phrase .expression false front expr)
      (stops : Level.expression.Stops rest) :
      StoredOutcome tokens ending
        (.ok expr ⟨⟨front.length, rest, ending⟩, bareWords front rest⟩)
  | refused (split : tokens = front ++ rest) (viable : Viable .expression front)
      (complaint : Complaint (.ok ending) rest fault)
      (ran : Parser.expression (Parser.facing ending tokens []) =
        .error fault (Parser.facing ending rest (bareWords front rest))) :
      StoredOutcome tokens ending
        (.error fault ⟨⟨front.length, rest, ending⟩, bareWords front rest⟩)

variable {tokens front rest : List Token} {stored : StoredTokens} {ending : Position} {expr : Expr}
variable {line? column? : Option Int}

theorem joined_endingAt (tokens : List Token) (ending : Position) :
    (Pairing.stored tokens.length).joined ⟨tokens, .ok ending⟩ (.endingAt tokens ending) :=
  ⟨rfl, Nat.zero_add _⟩

theorem joined_eq (joined : (Pairing.stored (front ++ rest).length).joined ⟨rest, .ok ending⟩ stored) :
    stored = ⟨front.length, rest, ending⟩ := by
  rw [← Nat.zero_add (front ++ rest).length] at joined
  rw [Pairing.stored_joined_eq joined, Nat.zero_add]

theorem stored_outcome (tokens : List Token) (ending : Position) :
    StoredOutcome tokens ending
      (Parser.expression (Parser.ofSource (StoredTokens.endingAt tokens ending))) := by
  have joined := joined_endingAt tokens ending
  have bounded : tokens.length ≤ TokenSource.bound (StoredTokens.endingAt tokens ending) :=
    Nat.le_refl _
  have outcome : Outcome (.ok ending) tokens [] _ _ _ := expression_outcome tokens []
  cases ran : Parser.expression (⟨⟨tokens, .ok ending⟩, []⟩ : Parser Feed) with
  | ok expr after =>
    obtain ⟨behind, run, follows⟩ :=
      (Pairing.stored tokens.length).expression_ok joined bounded ran (Nat.zero_le _)
    rw [ran] at outcome
    cases outcome with
    | @ok front rest said _ split completes =>
      obtain ⟨phrase, stops, rfl⟩ := completes
      subst split
      rw [stops.not_opens] at phrase
      rw [joined_eq follows, show (Pairing.stored _).place = id from rfl, Expr.moved_id] at run
      rw [Parser.ofSource, run]
      exact .accepted rfl phrase stops
  | error fault after =>
    obtain ⟨behind, run, follows⟩ :=
      (Pairing.stored tokens.length).expression_error joined bounded ran (Nat.zero_le _)
    rw [ran] at outcome
    cases outcome with
    | @failed front rest said _ split breaks =>
      obtain ⟨viable, complaint, rfl⟩ := breaks
      subst split
      rcases follows with follows | ⟨-, none⟩
      · rw [joined_eq follows, show (Pairing.stored _).place = id from rfl, Fault.moved_id] at run
        rw [Parser.ofSource, run]
        exact .refused rfl viable complaint ran
      · exact none.elim
    | broken met => cases met

theorem stored_completes (ending : Position) (phrase : Phrase .expression false front expr)
    (stops : Level.expression.Stops rest) :
    Parser.expression (Parser.ofSource (StoredTokens.endingAt (front ++ rest) ending)) =
      .ok expr ⟨⟨front.length, rest, ending⟩, bareWords front rest⟩ := by
  have joined := joined_endingAt (front ++ rest) ending
  have ran : Parser.expression (Parser.facing ending (front ++ rest) []) = _ :=
    expression_completes phrase stops
  obtain ⟨behind, run, follows⟩ :=
    (Pairing.stored _).expression_ok joined (Nat.le_refl _) ran (Nat.zero_le _)
  rw [joined_eq follows, show (Pairing.stored _).place = id from rfl, Expr.moved_id] at run
  exact run

theorem StoredTokens.of_ofList (built : StoredTokens.ofList tokens line? column? = .ok stored) :
    ∃ ending, stored = .endingAt tokens ending := by
  unfold StoredTokens.ofList at built
  cases place : StoredTokens.endOf tokens line? column? with
  | error fault =>
    rw [place] at built
    cases built
  | ok ending =>
    rw [place] at built
    cases built
    exact ⟨ending, rfl⟩

/-- Only a closing parenthesis or the end may follow an expression. -/
theorem Level.Stops.expression_iff :
    Level.expression.Stops rest ↔ ∀ token ∈ rest.head?, token.kind = .closeParen := by
  unfold Level.Stops
  simp only [Level.expression_continues, decide_eq_false_iff_not, Decidable.not_not]

/-- The parser accepts exactly its grammar. It reads an expression off the front part of a token list
that is a phrase for this very tree, places included, if a closing parenthesis or the end follows. -/
theorem expression_accepts_iff (built : StoredTokens.ofList tokens line? column? = .ok stored)
    (expr : Expr) (count : Nat) :
    (∃ after, Parser.expression (Parser.ofSource stored) = .ok expr after ∧
        after.source.index = count) ↔
      Phrase .expression false (tokens.take count) expr ∧
        (count = tokens.length ∨
          ∃ token, tokens[count]? = some token ∧ token.kind = .closeParen) := by
  obtain ⟨ending, rfl⟩ := StoredTokens.of_ofList built
  constructor
  · rintro ⟨after, ran, rfl⟩
    have outcome := stored_outcome tokens ending
    rw [ran] at outcome
    cases outcome with
    | @accepted front rest _ split phrase stops =>
      subst split
      rw [List.take_left' rfl]
      refine ⟨phrase, ?_⟩
      cases rest with
      | nil => exact .inl (by simp)
      | cons token rest =>
        exact .inr ⟨token, by simp, Level.Stops.expression_iff.mp stops token rfl⟩
  · rintro ⟨phrase, follows⟩
    have stops : Level.expression.Stops (tokens.drop count) := by
      rw [Level.Stops.expression_iff, List.head?_drop]
      rcases follows with rfl | ⟨token, next, closing⟩
      · simp
      · simpa [next] using closing
    have counted : count ≤ tokens.length := by
      rcases follows with rfl | ⟨token, next, -⟩
      · exact Nat.le_refl _
      · exact Nat.le_of_lt (List.getElem?_eq_some_iff.mp next).1
    have ran := stored_completes ending phrase stops
    rw [List.take_append_drop] at ran
    exact ⟨_, ran, List.length_take_of_le counted⟩

/-- Of `1)` the number is read, and the parenthesis is left. -/
theorem expression_accepts_one :
    let one : Token := ⟨.number, .int 1, ⟨1, 1⟩, none⟩
    let closer : Token := ⟨.closeParen, .text ")", ⟨1, 2⟩, none⟩
    StoredTokens.ofList [one, closer] none none = .ok (.endingAt [one, closer] ⟨1, 3⟩) ∧
      ∃ after, Parser.expression (Parser.ofSource (StoredTokens.endingAt [one, closer] ⟨1, 3⟩)) =
          .ok (.literal .number (.int 1) none ⟨1, 1⟩) after ∧ after.source.index = 1 := by
  intro one closer
  have built : StoredTokens.ofList [one, closer] none none =
    .ok (StoredTokens.endingAt [one, closer] ⟨1, 3⟩) := rfl
  have phrase : Phrase .expression false ([one, closer].take 1) _ := .ofLiteral _ _ rfl
  exact ⟨built, (expression_accepts_iff built _ 1).mpr ⟨phrase, .inr ⟨closer, rfl, rfl⟩⟩⟩

/-- What comes behind the token in front of which a parser failed does not matter. -/
theorem expression_error_shared {token : Token} {fault : Fault} {said : List Text}
    {ending : Except Fault Position}
    (failed : Parser.expression (⟨⟨front ++ token :: rest, ending⟩, []⟩ : Parser Feed) =
      .error fault ⟨⟨token :: rest, ending⟩, said⟩)
    (rest' : List Token) (ending' : Except Fault Position) :
    ∃ behind, Parser.expression (⟨⟨front ++ token :: rest', ending'⟩, []⟩ : Parser Feed) =
      .error fault behind := by
  have joined : (Pairing.shared token rest rest' ending ending').joined
      ⟨front ++ token :: rest, ending⟩ ⟨front ++ token :: rest', ending'⟩ :=
    ⟨front, rfl, rfl⟩
  obtain ⟨left, right, paired, same, same'⟩ :=
    (Pairing.shared token rest rest' ending ending').expression_feeds
      ⟨front ++ token :: rest, ending⟩ ⟨front ++ token :: rest', ending'⟩ []
  obtain ⟨behind, run, -⟩ :=
    paired.error (Nat.le_refl _) (same.symm.trans failed) joined (Nat.le_refl _)
  rw [show (Pairing.shared _ _ _ _ _).place = id from rfl, Fault.moved_id] at run
  exact ⟨_, same'.trans run⟩

/-- Then no stored tokens are accepted that begin with what was taken and that token. -/
theorem refused_whatever_follows {token : Token} {fault : Fault} {said : List Text}
    (failed : Parser.expression (Parser.facing ending (front ++ token :: rest) []) =
      .error fault (Parser.facing ending (token :: rest) said))
    (rest' : List Token) (ending' : Position) (expr : Expr) (after : Parser StoredTokens) :
    Parser.expression (Parser.ofSource (StoredTokens.endingAt (front ++ token :: rest') ending')) ≠
      .ok expr after := by
  intro accepted
  obtain ⟨behind, failed'⟩ := expression_error_shared failed rest' (.ok ending')
  obtain ⟨source, run, -⟩ := (Pairing.stored _).expression_error
    (joined_endingAt (front ++ token :: rest') ending') (Nat.le_refl _) failed' (Nat.zero_le _)
  rw [Parser.ofSource, run] at accepted
  cases accepted

theorem Outcome.Missing.eq {problem : Option TokenKind → Problem} {fault : Fault}
    (missing : Outcome.Missing problem (.ok ending) rest fault) :
    fault = .malformed (problem (rest.head?.map (·.kind)))
      ((rest.head?.map (·.position)).getD ending) := by
  obtain ⟨place, located, rfl⟩ := missing
  cases rest with
  | nil =>
    cases located
    rfl
  | cons token rest =>
    cases located
    rfl

theorem Complaint.message {fault : Fault} (complaint : Complaint (.ok ending) rest fault) :
    ∃ problem, fault = .malformed problem ((rest.head?.map (·.position)).getD ending) ∧
      (problem.message = "Expected expression, was " ++
          (rest.head?.map fun token => (token.kind.label ++ " token" : Text)).getD "end of text" ++ "." ∨
        problem.message = "Expected rparen token, was " ++
          (rest.head?.map fun token => (token.kind.label ++ " token" : Text)).getD "end of text" ++ ".") := by
  rcases complaint with missing | missing
  · refine ⟨_, Outcome.Missing.eq missing, .inl ?_⟩
    cases rest <;> rfl
  · refine ⟨_, Outcome.Missing.eq missing, .inr ?_⟩
    cases rest <;> rfl

/-- A parser that fails has taken as many tokens as it could. Those it took can be completed to an
expression, no accepted list begins with them and the next token, and the fault names what is missing
and speaks of the next token and its place, or of the end. -/
theorem expression_fails_first {fault : Fault} {after : Parser StoredTokens}
    (failed : Parser.expression (Parser.ofSource (StoredTokens.endingAt tokens ending)) =
      .error fault after) :
    (∃ more, ∀ ending', ∃ expr complete,
        Parser.expression (Parser.ofSource
          (StoredTokens.endingAt (tokens.take after.source.index ++ more) ending')) =
            .ok expr complete ∧ complete.source.remaining = []) ∧
      (after.source.index < tokens.length → ∀ more ending' expr complete,
        Parser.expression (Parser.ofSource
          (StoredTokens.endingAt (tokens.take (after.source.index + 1) ++ more) ending')) ≠
            .ok expr complete) ∧
      ∃ problem, fault = .malformed problem
          ((tokens[after.source.index]?.map (·.position)).getD ending) ∧
        (problem.message = "Expected expression, was " ++
            (tokens[after.source.index]?.map fun token =>
              (token.kind.label ++ " token" : Text)).getD "end of text" ++ "." ∨
          problem.message = "Expected rparen token, was " ++
            (tokens[after.source.index]?.map fun token =>
              (token.kind.label ++ " token" : Text)).getD "end of text" ++ ".") := by
  have outcome := stored_outcome tokens ending
  rw [failed] at outcome
  cases outcome with
  | @refused front rest _ split viable complaint ran =>
    subst split
    refine ⟨?_, ?_, ?_⟩
    · obtain ⟨more, expr, phrase⟩ := viable false
      refine ⟨more, fun ending' => ⟨expr, ?_⟩⟩
      have stops : Level.expression.Stops [] := by simp [Level.Stops]
      have accepted := stored_completes ending' phrase stops
      rw [List.append_nil] at accepted
      rw [List.take_left' rfl]
      exact ⟨_, accepted, rfl⟩
    · intro inside more ending' expr complete
      cases rest with
      | nil => simp at inside
      | cons token rest =>
        have taken : (front ++ token :: rest).take (front.length + 1) = front ++ [token] :=
          List.take_length_add_append 1
        rw [taken, List.append_assoc]
        exact refused_whatever_follows ran more ending' expr complete
    · have next : (front ++ rest)[front.length]? = rest.head? := by
        rw [List.getElem?_append_right (Nat.le_refl _), Nat.sub_self, List.head?_eq_getElem?]
      rw [next]
      exact complaint.message

/-- Behind `1+` an expression is missing, whatever follows the closing parenthesis. -/
theorem expression_fails_behind_plus :
    let one : Token := ⟨.number, .int 1, ⟨1, 1⟩, none⟩
    let plus : Token := ⟨.plus, .text "+", ⟨1, 2⟩, none⟩
    let closer : Token := ⟨.closeParen, .text ")", ⟨1, 3⟩, none⟩
    let problem : Problem := .expectedExpression (some .closeParen)
    Parser.expression (Parser.ofSource (StoredTokens.endingAt [one, plus, closer] ⟨1, 4⟩)) =
        .error (.malformed problem ⟨1, 3⟩) ⟨⟨2, [closer], ⟨1, 4⟩⟩, []⟩ ∧
      problem.message = "Expected expression, was rparen token." ∧
      ∀ more ending' expr complete,
        Parser.expression (Parser.ofSource
          (StoredTokens.endingAt ([one, plus, closer] ++ more) ending')) ≠ .ok expr complete := by
  intro one plus closer problem
  have failed : Parser.expression (Parser.ofSource
      (StoredTokens.endingAt [one, plus, closer] ⟨1, 4⟩)) =
        .error (.malformed problem ⟨1, 3⟩) ⟨⟨2, [closer], ⟨1, 4⟩⟩, []⟩ := rfl
  obtain ⟨-, refused, -⟩ := expression_fails_first failed
  exact ⟨failed, by decide, refused (by decide)⟩

end StyleExpr
