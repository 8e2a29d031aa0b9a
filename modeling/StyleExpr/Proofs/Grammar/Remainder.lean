import StyleExpr.Proofs.Grammar.Acceptance
import StyleExpr.Proofs.Source.Drain
import StyleExpr.Reading

/-! What a parser leaves to its host. Behind an expression a source stands in front of the first
closing parenthesis that closes none before it, or at its end, and a lexer shows that token already. -/

namespace StyleExpr

/-- The tokens from the first closing parenthesis on that closes no opening one before it. `depth`
parentheses are open in front of them. -/
def fromStray : Nat → List Token → List Token
  | _, [] => []
  | depth, token :: rest =>
    if token.kind = .openParen then fromStray (depth + 1) rest
    else if token.kind = .closeParen then
      match depth with
      | 0 => token :: rest
      | depth + 1 => fromStray depth rest
    else fromStray depth rest

/-- Tokens that close all parentheses that they open, and no others. -/
def Balanced (front : List Token) : Prop :=
  ∀ depth rest, fromStray depth (front ++ rest) = fromStray depth rest

def TokenKind.IsFlat (kind : TokenKind) : Prop :=
  kind ≠ .openParen ∧ kind ≠ .closeParen

instance (kind : TokenKind) : Decidable kind.IsFlat :=
  inferInstanceAs (Decidable (_ ∧ _))

section Balance

variable {token opener closer : Token} {front back inside rest : List Token} {kind : TokenKind}

theorem fromStray_flat (flat : token.kind.IsFlat) (depth : Nat) :
    fromStray depth (token :: rest) = fromStray depth rest := by
  cases depth <;> simp [fromStray, flat.1, flat.2]

theorem fromStray_open (opening : token.kind = .openParen) (depth : Nat) :
    fromStray depth (token :: rest) = fromStray (depth + 1) rest := by
  cases depth <;> simp [fromStray, opening]

theorem fromStray_close (closing : token.kind = .closeParen) (depth : Nat) :
    fromStray (depth + 1) (token :: rest) = fromStray depth rest := by
  simp [fromStray, closing]

theorem fromStray_stray (closing : token.kind = .closeParen) :
    fromStray 0 (token :: rest) = token :: rest := by
  simp [fromStray, closing]

theorem balanced_nil : Balanced [] :=
  fun _ _ => rfl

theorem Balanced.append (first : Balanced front) (second : Balanced back) :
    Balanced (front ++ back) := by
  intro depth rest
  rw [List.append_assoc, first, second]

theorem balanced_single (flat : token.kind.IsFlat) : Balanced [token] := by
  intro depth rest
  exact fromStray_flat flat depth

theorem Balanced.cons (flat : token.kind.IsFlat) (balanced : Balanced back) :
    Balanced (token :: back) :=
  (balanced_single flat).append balanced

theorem Balanced.enclosed (opening : opener.kind = .openParen) (closing : closer.kind = .closeParen)
    (balanced : Balanced inside) : Balanced (opener :: (inside ++ [closer])) := by
  intro depth rest
  rw [List.cons_append, List.append_assoc, fromStray_open opening, balanced]
  exact fromStray_close closing depth

theorem Separated.balanced {parts : List (List Token)} (separated : Separated parts inside)
    (each : ∀ part ∈ parts, Balanced part) : Balanced inside := by
  induction separated with
  | none => exact balanced_nil
  | one => exact each _ (List.mem_singleton_self _)
  | more comma _ ih =>
    have others := ih fun part member => each part (List.mem_cons_of_mem _ member)
    exact (each _ (List.mem_cons_self ..)).append (others.cons (by rw [comma]; decide))

theorem flat_of_operator {operator : Operator} (written : Operator.ofToken? kind = some operator) :
    kind.IsFlat := by
  constructor <;> rintro rfl <;> cases written

theorem flat_of_sign {level : Level} {operator : Operator}
    (found : level.sign? = some (operator, kind)) : kind.IsFlat := by
  constructor <;> rintro rfl <;> cases level <;> cases found

theorem flat_of_literal {literal : LiteralKind} (found : LiteralKind.ofToken? kind = some literal) :
    kind.IsFlat := by
  constructor <;> rintro rfl <;> cases found

theorem Phrase.balanced {level : Level} {opened : Bool} {tokens : List Token} {expr : Expr}
    (phrase : Phrase level opened tokens expr) : Balanced tokens := by
  induction phrase with
  | operand _ ih => exact ih
  | binary _ written _ _ before_ih behind_ih =>
    exact before_ih.append (behind_ih.cons (flat_of_operator written))
  | concat _ _ _ before_ih behind_ih => exact before_ih.append behind_ih
  | sign found _ ih => exact ih.cons (flat_of_sign found)
  | word kind => exact balanced_single (by rw [kind]; decide)
  | call kind opening closing parts separated _ each_ih =>
    have inner : Balanced _ := separated.balanced (by simpa using each_ih)
    exact (inner.enclosed opening closing).cons (by rw [kind]; decide)
  | paren opening closing _ ih => exact ih.enclosed opening closing
  | reference kind => exact balanced_single (by rw [kind]; decide)
  | literal found => exact balanced_single (flat_of_literal found)

/-- Behind a phrase that nothing goes on with, the first stray parenthesis comes next or none comes. -/
theorem fromStray_of_stops (balanced : Balanced front) (stops : Level.expression.Stops rest) :
    fromStray 0 (front ++ rest) = rest := by
  rw [balanced]
  cases rest with
  | nil => rfl
  | cons token rest =>
    exact fromStray_stray (Level.Stops.expression_iff.mp stops token rfl)

end Balance

/-- A source that has looked at what comes next, so that looking changes nothing. -/
def Settled {σ : Type} [TokenSource σ] (source : σ) : Prop :=
  ∃ shown, TokenSource.peek source = .ok shown source

section Source

variable {σ : Type} [TokenSource σ] [LawfulSource σ] {source : σ} {tokens : List Token}
variable {ending : Except Fault Position} {size bound : Nat} {warnings : List Text}
variable {after : Parser σ} {expr : Expr}

/-- Operators are read until the next token is none of them, so that token was looked at. -/
theorem foldOperators_settled {left : Parse Feed (Option Expr)} {right : Parse σ (Option Expr)}
    {operators : List Operator} {first : Expr}
    (operand : (Pairing.ofLawful σ).Alike size left right) (feeds : Feeds source tokens ending)
    (small : tokens.length ≤ size) (enough : size < bound)
    (ran : Grammar.foldOperators right operators bound first ⟨source, warnings⟩ = .ok expr after) :
    Settled after.source := by
  induction bound generalizing size source tokens ending first warnings with
  | zero => omega
  | succ bound ih =>
    obtain ⟨taken, between, accepted, rest⟩ := Parser.bind_eq_ok ran
    cases feeds with
    | broken looked =>
      rw [Parser.accept_of_fault looked] at accepted
      cases accepted
    | finish looked =>
      rw [Parser.accept_of_end looked] at accepted
      cases accepted
      cases rest
      exact ⟨_, LawfulSource.peek_again looked⟩
    | @token _ _ token tokens _ looked others =>
      cases joins : (Operator.ofToken? token.kind).filter (· ∈ operators) with
      | none =>
        rw [Parser.accept_of_none looked joins] at accepted
        cases accepted
        cases rest
        exact ⟨_, LawfulSource.peek_again looked⟩
      | some operator =>
        rw [Parser.accept_of_some looked joins] at accepted
        cases accepted
        obtain ⟨second, behind, required, again⟩ := Parser.bind_eq_ok rest
        rw [List.length_cons] at small
        have shorter : tokens.length ≤ size - 1 := Nat.le_sub_one_of_lt small
        have smaller : (Pairing.ofLawful σ).Alike (size - 1) left right :=
          operand.weaken (Nat.sub_le _ _) fun _ => Nat.le_refl _
        have joined : (Pairing.ofLawful σ).joined ⟨tokens, ending⟩ _ := others
        obtain ⟨given, fed, -, -, fewer, still⟩ :=
          smaller.require.right_ok rfl shorter joined required
        have left : fed.tokens.length ≤ size - 1 :=
          Nat.le_trans (Nat.le_of_succ_le fewer) shorter
        exact ih smaller still left (by omega) again

variable (feeds : Feeds source tokens ending)
  (ran : Parser.expression ⟨source, warnings⟩ = .ok expr after)
include feeds ran

theorem expression_settled : Settled after.source := by
  have enough := Nat.lt_succ_of_le feeds.length_le
  have operand := (Pairing.ofLawful σ).parseWithin_alike (Nat.lt_succ_self tokens.length) enough
    .concatenation
  have joined : (Pairing.ofLawful σ).joined ⟨tokens, ending⟩ source := feeds
  rw [Pairing.expression_run] at ran
  obtain ⟨first, between, read, rest⟩ := Parser.bind_eq_ok (Parser.require_eq_ok ran)
  obtain ⟨given, fed, -, -, fewer, still⟩ := operand.right_ok rfl (Nat.le_refl _) joined read
  cases first with
  | none => cases rest
  | some first =>
    obtain ⟨result, behind, folded, final⟩ := Parser.bind_eq_ok rest
    cases final
    have left : fed.tokens.length ≤ tokens.length := Nat.le_trans (Nat.le_add_right _ _) fewer
    exact foldOperators_settled operand still left enough folded

/-- What was taken is a phrase, nothing goes on with it, and the rest of the feed is left. A parser on
the feed does the same. -/
theorem expression_leaves :
    ∃ front rest, tokens = front ++ rest ∧ Phrase .expression false front expr ∧
      Level.expression.Stops rest ∧ Feeds after.source rest ending ∧
      Parser.expression (⟨⟨tokens, ending⟩, warnings⟩ : Parser Feed) =
        .ok expr ⟨⟨rest, ending⟩, after.warnings⟩ := by
  have joined : (Pairing.ofLawful σ).joined ⟨tokens, ending⟩ source := feeds
  have paired := (Pairing.ofLawful σ).expression_paired (Nat.lt_succ_self tokens.length)
    (Nat.lt_succ_of_le feeds.length_le)
  rw [Pairing.expression_run] at ran
  obtain ⟨given, fed, run, same, -, still⟩ := paired.right_ok rfl (Nat.le_refl _) joined ran
  rw [show (Pairing.ofLawful σ).place = id from rfl, Expr.moved_id] at same
  subst same
  have run' : Parser.expression (⟨⟨tokens, ending⟩, warnings⟩ : Parser Feed) =
      .ok given ⟨fed, after.warnings⟩ := by
    rw [Pairing.expression_run]
    exact run
  have outcome : Outcome ending tokens warnings _ _ _ := expression_outcome tokens warnings
  rw [run'] at outcome ⊢
  generalize after.warnings = said at outcome
  cases outcome with
  | @ok front rest said _ split completes =>
    obtain ⟨phrase, stops, -⟩ := completes
    rw [stops.not_opens] at phrase
    exact ⟨front, rest, split, phrase, stops, still, rfl⟩

end Source

theorem Lexer.shown_of_settled {lexer : Lexer} {token : Option Token}
    (looked : TokenSource.peek lexer = .ok token lexer) : lexer.shown = token := by
  rcases peek_cases looked with ⟨head, shown, rfl, -⟩ | ⟨cursor, -, same⟩
  · exact shown
  · rw [same]

namespace Reading

variable {expr : Expr} {warnings : List Text}

theorem ofSource_eq_ok_iff {σ : Type} [TokenSource σ] {source after : σ} :
    ofSource source = (⟨.ok expr, warnings⟩, after) ↔
      Parser.expression ⟨source, []⟩ = .ok expr ⟨after, warnings⟩ := by
  delta ofSource Parser.ofSource
  cases Parser.expression (⟨source, []⟩ : Parser σ) with
  | ok result behind =>
    obtain ⟨left, said⟩ := behind
    simp [and_left_comm, and_comm]
  | error fault behind => simp

/-- Behind an expression a source shows the first stray parenthesis of its feed, or its end. -/
theorem peek_of_ofSource {σ : Type} [TokenSource σ] [LawfulSource σ] {source after : σ}
    {tokens : List Token} {ending : Except Fault Position} (feeds : Feeds source tokens ending)
    (read : ofSource source = (⟨.ok expr, warnings⟩, after)) :
    TokenSource.peek after = .ok (fromStray 0 tokens).head? after := by
  have ran := ofSource_eq_ok_iff.mp read
  obtain ⟨shown, settled⟩ := expression_settled feeds ran
  obtain ⟨front, rest, rfl, phrase, stops, left, -⟩ := expression_leaves feeds ran
  rw [settled, left.shown_eq settled, fromStray_of_stops phrase.balanced stops]

theorem ofText_phrase {text : Text} {start place : Position} {front rest : List Token}
    (feeds : Feeds (Lexer.ofText text start) (front ++ rest) (.ok place))
    (phrase : Phrase .expression false front expr) (stops : Level.expression.Stops rest) :
    ∃ lexer, ofText text start = (⟨.ok expr, bareWords front rest⟩, lexer) ∧
      Feeds lexer rest (.ok place) := by
  have joined : (Pairing.ofLawful Lexer).joined ⟨front ++ rest, .ok place⟩
      (Lexer.ofText text start) := feeds
  have ran : Parser.expression (Parser.facing place (front ++ rest) []) = _ :=
    expression_completes phrase stops
  obtain ⟨behind, run, follows⟩ :=
    (Pairing.ofLawful Lexer).expression_ok joined feeds.length_le ran (Nat.zero_le _)
  rw [show (Pairing.ofLawful Lexer).place = id from rfl, Expr.moved_id] at run
  exact ⟨behind, ofSource_eq_ok_iff.mpr run, follows⟩

end Reading

/-- Behind an expression a lexer gives just the tokens of its text from the first closing parenthesis
on that closes none before it. The first of these is shown already and is not given twice. -/
theorem expression_hands_over {text : Text} {start : Position} {tokens : List Token} {expr : Expr}
    {warnings : List Text} {lexer : Lexer} (lexed : tokenize text start = .ok tokens)
    (read : Reading.ofText text start = (⟨.ok expr, warnings⟩, lexer)) :
    (∃ atEnd, TokenSource.drain lexer = .ok (fromStray 0 tokens) atEnd) ∧
      lexer.shown = (fromStray 0 tokens).head? ∧
      ∀ token ∈ (fromStray 0 tokens).head?, token.kind = .closeParen := by
  obtain ⟨atEnd, drained⟩ := tokenize_eq_ok_iff.mp lexed
  have feeds := feeds_of_drain drained
  have ran := Reading.ofSource_eq_ok_iff.mp read
  obtain ⟨shown, settled⟩ := expression_settled feeds ran
  obtain ⟨front, rest, rfl, phrase, stops, left, -⟩ := expression_leaves feeds ran
  rw [fromStray_of_stops phrase.balanced stops]
  refine ⟨?_, ?_, Level.Stops.expression_iff.mp stops⟩
  · obtain ⟨after, drained, -⟩ := left.drain_eq
    exact ⟨after, drained⟩
  · exact (Lexer.shown_of_settled settled).trans (left.shown_eq settled)

/-- Of `(a))+` the parenthesis behind the group is handed over, and the sign behind it. -/
theorem expression_hands_over_stray :
    let opener : Token := ⟨.openParen, .text "(", ⟨1, 1⟩, none⟩
    let word : Token := ⟨.identifier, .text "a", ⟨1, 2⟩, none⟩
    let closer : Token := ⟨.closeParen, .text ")", ⟨1, 3⟩, none⟩
    let stray : Token := ⟨.closeParen, .text ")", ⟨1, 4⟩, none⟩
    let plus : Token := ⟨.plus, .text "+", ⟨1, 5⟩, none⟩
    let expr : Expr := .literal .string (.text "a") none ⟨1, 2⟩
    let warning : Text := Grammar.implicitStringWarning (.text "a")
    tokenize "(a))+" ⟨1, 1⟩ = .ok [opener, word, closer, stray, plus] ∧
      ∃ lexer, Reading.ofText "(a))+" ⟨1, 1⟩ = (⟨.ok expr, [warning]⟩, lexer) ∧
        (∃ atEnd, TokenSource.drain lexer = .ok [stray, plus] atEnd) ∧ lexer.shown = some stray := by
  intro opener word closer stray plus expr warning
  have lexed : tokenize "(a))+" ⟨1, 1⟩ = .ok [opener, word, closer, stray, plus] := rfl
  obtain ⟨atEnd, drained⟩ := tokenize_eq_ok_iff.mp lexed
  have bare : Phrase .call false [word] expr := .word rfl
  have inside : Phrase .expression false [word] expr := bare.loosen (by decide)
  have group : Phrase .paren false [opener, word, closer] expr := .paren rfl rfl inside
  have stops : Level.expression.Stops [stray, plus] :=
    Level.Stops.expression_iff.mpr (by simp [stray])
  obtain ⟨lexer, read, -⟩ :=
    Reading.ofText_phrase (feeds_of_drain drained) (group.loosen (by decide)) stops
  obtain ⟨left, shown, -⟩ := expression_hands_over lexed read
  exact ⟨lexed, lexer, read, left, shown⟩

end StyleExpr
