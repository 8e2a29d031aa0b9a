import StyleExpr.Proofs.Grammar.Acceptance
import StyleExpr.Reading

/-! The warnings of a reading. There is one for every word taken that no opening parenthesis follows, in
the order of the words, whether an expression was read or not. -/

namespace StyleExpr

open Grammar

/-- The warning for the token at an index, if it is a word that no opening parenthesis follows. -/
def wordWarning? (tokens : List Token) (index : Nat) : Option Text :=
  match tokens[index]? with
  | some token =>
    if token.kind = .identifier ∧ tokens[index + 1]?.map (·.kind) ≠ some .openParen then
      some ("Implicit strings are deprecated. '" ++ token.value.plain ++
        "' was not quoted. Please add double quotes. E.g. \"" ++ token.value.plain ++ "\".")
    else none
  | none => none

variable {tokens front rest : List Token} {stored : StoredTokens} {line? column? : Option Int}

theorem opens_eq_false_iff : opens tokens = false ↔ tokens[0]?.map (·.kind) ≠ some .openParen := by
  cases tokens <;> simp [opens]

theorem bareWords_eq_filterMap (front rest : List Token) :
    bareWords front rest = (List.range front.length).filterMap (wordWarning? (front ++ rest)) := by
  induction front with
  | nil => rfl
  | cons token front ih =>
    have later : wordWarning? (token :: front ++ rest) ∘ Nat.succ = wordWarning? (front ++ rest) :=
      funext fun index => rfl
    rw [List.length_cons, List.range_succ_eq_map, List.filterMap_cons, List.filterMap_map, later, ← ih,
      bareWords]
    simp only [wordWarning?, List.cons_append, List.getElem?_cons_zero, List.getElem?_cons_succ,
      opens_eq_false_iff]
    split <;> rfl

/-- Reading stored tokens reports just the bare words among the tokens that it took, each of them once
and in order, and reports nothing else. It may have failed behind them. -/
theorem warnings_eq_wordWarnings (built : StoredTokens.ofList tokens line? column? = .ok stored) :
    (Reading.ofSource stored).1.warnings =
      (List.range (Reading.ofSource stored).2.index).filterMap (wordWarning? tokens) := by
  obtain ⟨ending, rfl⟩ := StoredTokens.of_ofList built
  have outcome := stored_outcome tokens ending
  unfold Reading.ofSource
  revert outcome
  generalize Parser.expression (Parser.ofSource (StoredTokens.endingAt tokens ending)) = result
  intro outcome
  cases outcome with
  | accepted split | refused split =>
    rw [split]
    exact bareWords_eq_filterMap _ _

/-- Of `a f(b` the words `a` and `b` are reported, though the call is never closed. -/
theorem warnings_eq_wordWarnings_open_call :
    let first : Token := ⟨.identifier, .text "a", ⟨1, 1⟩, none⟩
    let called : Token := ⟨.identifier, .text "f", ⟨1, 3⟩, none⟩
    let opener : Token := ⟨.openParen, .text "(", ⟨1, 4⟩, none⟩
    let second : Token := ⟨.identifier, .text "b", ⟨1, 5⟩, none⟩
    let stored := StoredTokens.endingAt [first, called, opener, second] ⟨1, 6⟩
    StoredTokens.ofList [first, called, opener, second] none none = .ok stored ∧
      (Reading.ofSource stored).1.outcome.isOk = false ∧
      (Reading.ofSource stored).1.warnings =
        [Text.ofString
            "Implicit strings are deprecated. 'a' was not quoted. Please add double quotes. E.g. \"a\".",
          Text.ofString
            "Implicit strings are deprecated. 'b' was not quoted. Please add double quotes. E.g. \"b\"."
        ] := by
  intro first called opener second stored
  have built : StoredTokens.ofList [first, called, opener, second] none none = .ok stored := rfl
  have left : (Reading.ofSource stored).2.index = 4 := by decide +kernel
  refine ⟨built, by decide +kernel, ?_⟩
  rw [warnings_eq_wordWarnings built, left]
  rfl

end StyleExpr
