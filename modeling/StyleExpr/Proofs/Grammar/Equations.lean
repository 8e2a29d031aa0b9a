import StyleExpr.Proofs.Grammar.Follow

/-! The levels without bounds. On a feed, a level is the shape that it has over the parsers of the
tighter level, of whole expressions and of arguments; which bound serves its loops does not matter. -/

namespace StyleExpr

open Grammar StyleExpr.Parser

variable {size bound bound' : Nat} {feed : Feed} {warnings : List Text}
variable {left left' right right' : Parse Feed (Option Expr)}

namespace Pairing

/-- Runs may be replaced by runs that are the same on feeds of the size spoken of. -/
theorem Alike.congr (alike : self.Alike size left right)
    (same : ∀ feed warnings, feed.tokens.length ≤ size →
      left' ⟨feed, warnings⟩ = left ⟨feed, warnings⟩)
    (same' : ∀ feed warnings, feed.tokens.length ≤ size →
      right' ⟨feed, warnings⟩ = right ⟨feed, warnings⟩) :
    self.Alike size left' right' := by
  intro feed warnings small
  have step := alike feed warnings small
  rw [same feed warnings small]
  cases ran : left ⟨feed, warnings⟩ with
  | ok result after =>
    rw [ran] at step
    refine ⟨step.1, ?_⟩
    rintro source rfl kept
    rw [same' feed warnings small]
    exact step.2 feed rfl kept
  | error fault after =>
    rw [ran] at step
    refine ⟨step.1, ?_⟩
    rintro source rfl kept
    rw [same' feed warnings small]
    exact step.2 feed rfl kept

theorem Alike.self_eq (alike : self.Alike size left right) (small : feed.tokens.length ≤ size) :
    left ⟨feed, warnings⟩ = right ⟨feed, warnings⟩ :=
  Paired.self_eq alike (fun result => by cases result <;> simp [self]) small

end Pairing

namespace Level

theorem parse_eq (level : Level) (small : feed.tokens.length ≤ size) :
    level.parse ⟨feed, warnings⟩ = level.parseIn (size + 1) (nested (size + 1)) ⟨feed, warnings⟩ := by
  rw [← parseWithin_feed level warnings (Nat.lt_succ_of_le small), parseWithin]

/-- Inside parentheses nested as deep as the tokens allow, a level is what it is outside. -/
theorem parseIn_alike_parse {depth : Nat} (level : Level) (enough : size < bound)
    (deep : size ≤ depth) :
    Pairing.self.Alike size (level.parseIn bound (nested depth)) level.parse := by
  have inside : Pairing.self.NestedAlike size (nested depth) (nested (size + 1)) :=
    Pairing.nested_alike deep (Nat.le_succ size)
  have alike := Pairing.parseIn_alike inside enough (Nat.lt_succ_self size) level
  exact alike.congr (fun _ _ _ => rfl) fun _ _ small => level.parse_eq small

theorem parse_alike (level : Level) (size : Nat) :
    Pairing.self.Alike size level.parse level.parse :=
  (level.parseIn_alike_parse (Nat.lt_succ_self size) (Nat.le_succ size)).congr
    (fun _ _ small => level.parse_eq small) fun _ _ _ => rfl

/-- Parentheses hold whole expressions, and the arguments of a call. -/
def inParens : Nested Feed :=
  ⟨expression.parse, concatenation.parse⟩

theorem nested_alike_inParens {depth : Nat} (deep : size ≤ depth) :
    Pairing.self.NestedAlike size (nested depth) inParens := by
  cases depth with
  | zero => exact fun some => by omega
  | succ depth =>
    intro some
    exact ⟨expression.parseIn_alike_parse (by omega) (by omega),
      concatenation.parseIn_alike_parse (by omega) (by omega)⟩

variable {level : Level}

theorem parse_operators (joined : level.operators ≠ []) :
    level.parse ⟨feed, warnings⟩ =
      binaryLevel (feed.tokens.length + 1) level.tighter.parse level.operators
        ⟨feed, warnings⟩ := by
  rw [level.parse_eq (Nat.le_refl _), parseIn_operators joined]
  have operand := level.tighter.parseIn_alike_parse (Nat.lt_succ_self feed.tokens.length)
    (Nat.le_succ feed.tokens.length)
  have alike := Pairing.binaryLevel_alike level.operators operand (Nat.lt_succ_self _)
    (Nat.lt_succ_self _)
  exact alike.self_eq (Nat.le_refl _)

theorem parse_concatenation :
    concatenation.parse ⟨feed, warnings⟩ =
      (do
        match ← disjunction.parse with
        | none => return none
        | some first =>
          return some (← foldConcat disjunction.parse (feed.tokens.length + 1) first) :
        Parse Feed (Option Expr)) ⟨feed, warnings⟩ := by
  rw [concatenation.parse_eq (Nat.le_refl _)]
  have operand := disjunction.parseIn_alike_parse (Nat.lt_succ_self feed.tokens.length)
    (Nat.le_succ feed.tokens.length)
  refine Pairing.Alike.self_eq (operand.bind ?_) (Nat.le_refl feed.tokens.length)
  rintro (_ | first) _
  · exact .pure rfl
  · have rest := operand.weaken (Nat.sub_le feed.tokens.length 1) fun _ => Nat.le_refl _
    refine (Pairing.foldConcat_alike rest (by omega) (by omega) first).bind ?_
    exact fun result _ => .pure rfl

theorem parse_sign {operator : Operator} {kind : TokenKind}
    (found : level.sign? = some (operator, kind)) (enough : feed.tokens.length < bound) :
    level.parse ⟨feed, warnings⟩ =
      prefixLevel operator kind level.tighter.parse bound ⟨feed, warnings⟩ := by
  rw [level.parse_eq (Nat.le_refl _), parseIn_sign found]
  have operand := level.tighter.parseIn_alike_parse (Nat.lt_succ_self feed.tokens.length)
    (Nat.le_succ feed.tokens.length)
  have alike := Pairing.prefixLevel_alike operator kind operand (Nat.lt_succ_self _) enough
  exact alike.self_eq (Nat.le_refl _)

theorem parse_sign_again {operator : Operator} {kind : TokenKind}
    (found : level.sign? = some (operator, kind)) :
    level.parse ⟨feed, warnings⟩ =
      (do
        match ← take? [kind] with
        | none => level.tighter.parse
        | some token => return some (.unary (← require level.parse) operator token.position) :
        Parse Feed (Option Expr)) ⟨feed, warnings⟩ := by
  have operand := level.tighter.parse_alike feed.tokens.length
  rw [parse_sign found (Nat.lt_succ_self _)]
  refine Pairing.Alike.self_eq ?_ (Nat.le_refl feed.tokens.length)
  refine (Pairing.Paired.take? _).bind ?_
  rintro (_ | token) taken
  · exact operand.weaken (Nat.sub_le _ _) fun _ => Nat.sub_le _ _
  · simp only [Pairing.present] at taken ⊢
    have rest := operand.weaken (Nat.sub_le feed.tokens.length 1) fun _ => Nat.le_refl _
    have alike := Pairing.prefixLevel_alike operator kind rest
      (show _ < feed.tokens.length by omega) (Nat.lt_succ_self _)
    have again : Pairing.self.Alike (feed.tokens.length - 1) _ level.parse :=
      alike.congr (fun _ _ _ => rfl) fun _ _ small => parse_sign found (Nat.lt_succ_of_le small)
    exact again.require.bind fun operand _ => .pure rfl

theorem parse_call :
    call.parse ⟨feed, warnings⟩ =
      Grammar.call (feed.tokens.length + 1) inParens ⟨feed, warnings⟩ := by
  rw [call.parse_eq (Nat.le_refl _)]
  have inside := nested_alike_inParens (Nat.le_succ feed.tokens.length)
  have alike := Pairing.call_alike inside (Nat.lt_succ_self _) (Nat.lt_succ_self _)
  exact alike.self_eq (Nat.le_refl _)

theorem parse_paren :
    paren.parse ⟨feed, warnings⟩ = Grammar.paren inParens ⟨feed, warnings⟩ := by
  rw [paren.parse_eq (Nat.le_refl _)]
  have inside := nested_alike_inParens (Nat.le_succ feed.tokens.length)
  exact (Pairing.paren_alike inside).self_eq (Nat.le_refl _)

end Level

section Loops

variable {level : Level}

theorem foldOperators_feed (operators : List Operator) (first : Expr)
    (enough : feed.tokens.length < bound) (enough' : feed.tokens.length < bound') :
    foldOperators level.parse operators bound first ⟨feed, warnings⟩ =
      foldOperators level.parse operators bound' first ⟨feed, warnings⟩ := by
  have operand := level.parse_alike feed.tokens.length
  have alike := Pairing.foldOperators_alike operators operand enough enough' first
  rw [show Pairing.self.place = id from rfl, Expr.moved_id] at alike
  exact alike.self_eq Expr.moved_id (Nat.le_refl _)

theorem foldConcat_feed (first : Expr) (enough : feed.tokens.length < bound)
    (enough' : feed.tokens.length < bound') :
    foldConcat level.parse bound first ⟨feed, warnings⟩ =
      foldConcat level.parse bound' first ⟨feed, warnings⟩ := by
  have operand := level.parse_alike feed.tokens.length
  have alike := Pairing.foldConcat_alike operand enough enough' first
  rw [show Pairing.self.place = id from rfl, Expr.moved_id] at alike
  exact alike.self_eq Expr.moved_id (Nat.le_refl _)

end Loops

end StyleExpr
