import StyleExpr.Proofs.Grammar.Remainder
import StyleExpr.Proofs.Source.Approach

/-! Text behind an expression is not looked at. A parser that leaves a closing parenthesis has its lexer
right behind that, and whatever stands there, it reads the same. -/

namespace StyleExpr

/-- A source that is led to a token follows the feed of what it gives up to that token. -/
def Pairing.toward {τ : Type} [TokenSource τ] [LawfulSource τ] (token : Token) (target : τ)
    (ending : Except Fault Position) : Pairing τ where
  place := id
  limit := 1
  joined := fun feed source =>
    ∃ front, feed = ⟨front ++ [token], ending⟩ ∧ Leads token target source front
  broken := fun _ _ => False
  look_token := by
    rintro head tokens end' source ⟨front, same, leads⟩
    obtain ⟨listed, rfl⟩ := Feed.mk.inj same
    cases leads with
    | here looked =>
      obtain ⟨rfl, rfl⟩ := List.cons.inj listed
      have still := Leads.here (LawfulSource.peek_again looked)
      exact ⟨_, looked, ⟨[], rfl, still⟩, fun kept => absurd kept (Nat.not_succ_le_zero 0)⟩
    | onward looked others =>
      obtain ⟨rfl, rfl⟩ := List.cons.inj listed
      have still := Leads.onward (LawfulSource.peek_again looked) others
      exact ⟨_, looked, ⟨_, rfl, still⟩, fun _ => ⟨_, rfl, others⟩⟩
  look_end := by
    rintro position source ⟨front, same, -⟩
    have listed := (Feed.mk.inj same).1
    simp at listed
  look_fault := by
    rintro fault source ⟨front, same, -⟩
    have listed := (Feed.mk.inj same).1
    simp at listed

variable {tokens front rest : List Token} {token : Token} {ending : Except Fault Position}
variable {expr : Expr} {warnings : List Text}

/-- The tokens behind the one that a parser left do not matter. -/
theorem expression_ok_shared
    (ran : Parser.expression (⟨⟨front ++ token :: rest, ending⟩, []⟩ : Parser Feed) =
      .ok expr ⟨⟨token :: rest, ending⟩, warnings⟩) (rest' : List Token)
    (ending' : Except Fault Position) :
    Parser.expression (⟨⟨front ++ token :: rest', ending'⟩, []⟩ : Parser Feed) =
      .ok expr ⟨⟨token :: rest', ending'⟩, warnings⟩ := by
  have joined : (Pairing.shared token rest rest' ending ending').joined
      ⟨front ++ token :: rest, ending⟩ ⟨front ++ token :: rest', ending'⟩ := ⟨front, rfl, rfl⟩
  obtain ⟨left, right, paired, same, same'⟩ :=
    (Pairing.shared token rest rest' ending ending').expression_feeds
      ⟨front ++ token :: rest, ending⟩ ⟨front ++ token :: rest', ending'⟩ []
  obtain ⟨behind, run, between, listed, rfl⟩ :=
    paired.ok (Nat.le_refl _) (same.symm.trans ran) joined (Nat.le_refl _)
  have none : between = [] := by
    simpa using (Feed.mk.inj listed).1
  subst none
  rw [same', run, show (Pairing.shared _ _ _ _ _).place = id from rfl, Expr.moved_id]
  rfl

/-- A parser on a source that is led to a token stops there if a parser on the feed does. -/
theorem Leads.expression_eq {σ : Type} [TokenSource σ] [LawfulSource σ] {source target : σ}
    (leads : Leads token target source front)
    (ran : Parser.expression (⟨⟨front ++ [token], ending⟩, []⟩ : Parser Feed) =
      .ok expr ⟨⟨[token], ending⟩, warnings⟩) :
    Parser.expression ⟨source, []⟩ = .ok expr ⟨target, warnings⟩ := by
  have joined : (Pairing.toward token target ending).joined ⟨front ++ [token], ending⟩ source :=
    ⟨front, rfl, leads⟩
  have bounded : (front ++ [token]).length ≤ TokenSource.bound source := by
    rw [List.length_append]
    exact leads.length_lt
  obtain ⟨behind, run, left, same, led⟩ :=
    (Pairing.toward token target ending).expression_ok joined bounded ran (Nat.le_refl _)
  have none : left = [] := by
    have listed := (Feed.mk.inj same).1
    simpa using listed
  subst none
  obtain ⟨tokens, ending', feeds⟩ := exists_feeds source
  obtain ⟨shown, settled⟩ := expression_settled feeds run
  rw [run, show (Pairing.toward _ _ _).place = id from rfl, Expr.moved_id]
  cases led with
  | here looked =>
    rw [settled] at looked
    cases looked
    rfl

/-- The way to the token that a parser left tells what it read. -/
theorem expression_tells_way {σ : Type} [TokenSource σ] [LawfulSource σ] {source left after : σ}
    (ran : Parser.expression ⟨source, []⟩ = .ok expr ⟨left, warnings⟩)
    (shows : TokenSource.peek left = .ok (some token) after) :
    token.kind = .closeParen ∧ ∃ front, Leads token left source front ∧
      ∀ source' left' : σ, Leads token left' source' front →
        Parser.expression ⟨source', []⟩ = .ok expr ⟨left', warnings⟩ := by
  obtain ⟨tokens, ending, feeds⟩ := exists_feeds source
  obtain ⟨front, rest, rfl, -, stops, remaining, run⟩ := expression_leaves feeds ran
  have next := remaining.shown_eq shows
  cases rest with
  | nil => cases next
  | cons head rest =>
    obtain rfl := Option.some.inj next
    have alone := expression_ok_shared run [] ending
    obtain ⟨target, leads⟩ := feeds.leads
    have same := leads.expression_eq alone
    rw [ran] at same
    cases same
    refine ⟨Level.Stops.expression_iff.mp stops token rfl, front, leads, ?_⟩
    exact fun source' left' leads' => leads'.expression_eq alone

/-- A parser that leaves a token leaves the lexer right behind it, and it is a closing parenthesis.
With any other text behind the parenthesis, it reads the same tree with the same warnings and leaves
the lexer at the same place, showing the same token. -/
theorem expression_ignores_rest {text : Text} {start : Position} {lexer after : Lexer}
    (read : Reading.ofText text start = (⟨.ok expr, warnings⟩, lexer))
    (left : TokenSource.peek lexer = .ok (some token) after) :
    (∃ before, text.toList = before ++ scalar ')' :: lexer.cursor.ahead ∧
      lexer.cursor.behind = scalar ')' :: before.reverse ∧
      lexer.cursor.position = start.afterAll (before ++ [scalar ')']) ∧
      token = ⟨.closeParen, .text ")", start.afterAll before, none⟩ ∧ lexer.shown = some token) ∧
    ∀ behind, Reading.ofText
        (Text.ofList (text.toList.take lexer.cursor.index ++ behind)) start =
      (⟨.ok expr, warnings⟩, { lexer with cursor := { lexer.cursor with ahead := behind } }) := by
  obtain ⟨closes, front, leads, tells⟩ :=
    expression_tells_way (Reading.ofSource_eq_ok_iff.mp read) left
  obtain ⟨before, behind, split, rfl, rfl, way⟩ := leads.sealed closes
  rw [split]
  refine ⟨⟨before, rfl, ?_, rfl, rfl, rfl⟩, fun behind' => ?_⟩
  · simp [Lexer.atClosing]
  · have counted : (Lexer.atClosing [] before behind start).cursor.index = before.length + 1 := by
      simp [Lexer.atClosing, Cursor.index]
    have kept : (before ++ scalar ')' :: behind).take (Lexer.atClosing [] before behind start).cursor.index ++
        behind' = before ++ scalar ')' :: behind' := by
      rw [counted, List.take_length_add_append, List.append_assoc]
      rfl
    rw [kept, Reading.ofText, Lexer.ofText, Cursor.start, Text.toList_ofList]
    exact Reading.ofSource_eq_ok_iff.mpr (tells _ _ (way behind'))

/-- Behind `a)` anything may stand, lexemes or not. -/
theorem expression_ignores_rest_word :
    let expr : Expr := .literal .string (.text "a") none ⟨1, 1⟩
    let warning : Text := Grammar.implicitStringWarning (.text "a")
    let closer : Token := ⟨.closeParen, .text ")", ⟨1, 2⟩, none⟩
    let lexer : Lexer := ⟨⟨[scalar ')', scalar 'a'], [], ⟨1, 3⟩⟩, some closer⟩
    Reading.ofText "a)" ⟨1, 1⟩ = (⟨.ok expr, [warning]⟩, lexer) ∧
      TokenSource.peek lexer = .ok (some closer) lexer ∧
      ∀ behind, Reading.ofText (Text.ofList (scalar 'a' :: scalar ')' :: behind)) ⟨1, 1⟩ =
        (⟨.ok expr, [warning]⟩, ⟨⟨[scalar ')', scalar 'a'], behind, ⟨1, 3⟩⟩, some closer⟩) := by
  intro expr warning closer lexer
  let word : Token := ⟨.identifier, .text "a", ⟨1, 1⟩, none⟩
  have lexed : tokenize "a)" ⟨1, 1⟩ = .ok [word, closer] := rfl
  obtain ⟨atEnd, drained⟩ := tokenize_eq_ok_iff.mp lexed
  have bare : Phrase .call false [word] expr := .word rfl
  have stops : Level.expression.Stops [closer] := Level.Stops.expression_iff.mpr (by simp [closer])
  obtain ⟨stood, read, -⟩ :=
    Reading.ofText_phrase (feeds_of_drain drained) (bare.loosen (by decide)) stops
  have stands : (Reading.ofText "a)" ⟨1, 1⟩).2 = lexer := by decide +kernel
  rw [read] at stands
  obtain rfl : stood = lexer := stands
  have looked : TokenSource.peek lexer = .ok (some closer) lexer := rfl
  exact ⟨read, looked, (expression_ignores_rest read looked).2⟩

end StyleExpr
