import StyleExpr.Proofs.Grammar.Chain
import StyleExpr.Proofs.Grammar.Pairing

/-! Every level reads alike from a feed and from a source that follows it, whatever the bounds on
repetitions are, as long as they exceed the number of tokens that are left. -/

namespace StyleExpr.Pairing

open StyleExpr.Parser Grammar

variable {τ : Type} [TokenSource τ] {pairing : Pairing τ} {size bound bound' : Nat}
variable {left : Parse Feed (Option Expr)} {right : Parse τ (Option Expr)}
variable {inner : Nested Feed} {inner' : Nested τ}

theorem foldOperators_alike (operators : List Operator) (operand : pairing.Alike size left right)
    (enough : size < bound) (enough' : size < bound') (first : Expr) :
    pairing.Paired size (fun _ => 0) (Expr.moved pairing.place)
      (foldOperators left operators bound first)
      (foldOperators right operators bound' (first.moved pairing.place)) := by
  induction bound generalizing size bound' first with
  | zero => omega
  | succ bound ih =>
    obtain _ | bound' := bound'
    · omega
    refine (Paired.accept _).bind ?_
    rintro (_ | ⟨token, operator⟩) taken
    · exact .pure rfl
    · simp only [present] at taken ⊢
      have rest : pairing.Alike (size - 1) left right :=
        operand.weaken (Nat.sub_le _ _) fun _ => Nat.le_refl _
      refine rest.require.bind ?_
      intro second _
      have again : pairing.Paired _ _ _ _ (foldOperators right operators bound' _) :=
        ih (rest.weaken (Nat.sub_le _ 1) fun _ => Nat.le_refl _) (by omega) (by omega)
          (.binary first second operator first.position)
      simp only [Expr.moved, ← Expr.position_moved] at again
      exact again

theorem binaryLevel_alike (operators : List Operator) (operand : pairing.Alike size left right)
    (enough : size < bound) (enough' : size < bound') :
    pairing.Alike size (binaryLevel bound left operators) (binaryLevel bound' right operators) := by
  refine operand.bind ?_
  rintro (_ | first) _
  · exact .pure rfl
  · have rest := operand.weaken (Nat.sub_le size 1) fun _ => Nat.le_refl _
    refine (foldOperators_alike operators rest (by omega) (by omega) first).bind ?_
    exact fun result _ => .pure rfl

theorem foldConcat_alike (operand : pairing.Alike size left right)
    (enough : size < bound) (enough' : size < bound') (first : Expr) :
    pairing.Paired size (fun _ => 0) (Expr.moved pairing.place)
      (foldConcat left bound first) (foldConcat right bound' (first.moved pairing.place)) := by
  induction bound generalizing size bound' first with
  | zero => omega
  | succ bound ih =>
    obtain _ | bound' := bound'
    · omega
    refine operand.bind ?_
    rintro (_ | second) taken
    · exact .pure rfl
    · simp only [present] at taken ⊢
      have again : pairing.Paired _ _ _ _ (foldConcat right bound' _) :=
        ih (operand.weaken (Nat.sub_le _ 1) fun _ => Nat.le_refl _) (by omega) (by omega)
          (.binary first second .concat first.position)
      simp only [Expr.moved, ← Expr.position_moved] at again
      exact again

theorem prefixLevel_alike (operator : Operator) (kind : TokenKind)
    (operand : pairing.Alike size left right) (enough : size < bound) (enough' : size < bound') :
    pairing.Alike size (prefixLevel operator kind left bound)
      (prefixLevel operator kind right bound') := by
  induction bound generalizing size bound' with
  | zero => omega
  | succ bound ih =>
    obtain _ | bound' := bound'
    · omega
    refine (Paired.take? _).bind ?_
    rintro (_ | token) taken
    · exact operand.weaken (Nat.sub_le _ _) fun _ => Nat.sub_le _ _
    · simp only [present] at taken ⊢
      have again : pairing.Alike _ _ (prefixLevel operator kind right bound') :=
        ih (operand.weaken (Nat.sub_le _ 1) fun _ => Nat.le_refl _) (by omega) (by omega)
      exact again.require.bind fun operand _ => .pure rfl

theorem literal_alike : pairing.Alike size Grammar.literal Grammar.literal := by
  refine (Paired.accept _).bind ?_
  rintro (_ | ⟨token, kind⟩) _
  · exact .pure rfl
  · exact .pure rfl

theorem reference_alike : pairing.Alike size Grammar.reference Grammar.reference := by
  refine (Paired.take? _).bind ?_
  rintro (_ | token) _
  · exact literal_alike.weaken (Nat.sub_le _ _) fun _ => Nat.sub_le _ _
  · exact .pure rfl

/-- What stands in parentheses is read with fewer tokens left than the parentheses were. -/
def NestedAlike (pairing : Pairing τ) (size : Nat) (inner : Nested Feed) (inner' : Nested τ) :
    Prop :=
  0 < size → pairing.Alike (size - 1) inner.expression inner'.expression ∧
    pairing.Alike (size - 1) inner.argument inner'.argument

theorem paren_alike (nested : pairing.NestedAlike size inner inner') :
    pairing.Alike size (paren inner) (paren inner') := by
  refine (Paired.take? _).bind ?_
  rintro (_ | token) taken
  · exact reference_alike.weaken (Nat.sub_le _ _) fun _ => Nat.sub_le _ _
  · simp only [present] at taken ⊢
    refine (nested taken).1.require.bind ?_
    intro expr _
    refine (Paired.take _).bind ?_
    exact fun closing _ => .pure rfl

theorem moreArguments_alike (argument : pairing.Alike size left right)
    (enough : size < bound) (enough' : size < bound') :
    pairing.Paired size (fun _ => 0) (List.map (Expr.moved pairing.place))
      (moreArguments left bound) (moreArguments right bound') := by
  induction bound generalizing size bound' with
  | zero => omega
  | succ bound ih =>
    obtain _ | bound' := bound'
    · omega
    refine (Paired.take? _).bind ?_
    rintro (_ | comma) taken
    · exact .pure rfl
    · simp only [present] at taken ⊢
      have rest : pairing.Alike (size - 1) left right :=
        argument.weaken (Nat.sub_le _ _) fun _ => Nat.le_refl _
      refine rest.require.bind ?_
      intro next _
      have again : pairing.Paired _ _ _ _ (moreArguments right bound') :=
        ih (rest.weaken (Nat.sub_le _ 1) fun _ => Nat.le_refl _) (by omega) (by omega)
      exact again.bind fun others _ => .pure rfl

theorem arguments_alike (argument : pairing.Alike size left right)
    (enough : size < bound) (enough' : size < bound') :
    pairing.Paired size (fun _ => 0) (List.map (Expr.moved pairing.place))
      (Grammar.arguments bound left) (Grammar.arguments bound' right) := by
  refine argument.bind ?_
  rintro (_ | first) _
  · exact .pure rfl
  · have rest := argument.weaken (Nat.sub_le size 1) fun _ => Nat.le_refl _
    refine (moreArguments_alike rest (by omega) (by omega)).bind ?_
    exact fun others _ => .pure rfl

theorem call_alike (nested : pairing.NestedAlike size inner inner')
    (enough : size < bound) (enough' : size < bound') :
    pairing.Alike size (call bound inner) (call bound' inner') := by
  refine (Paired.take? _).bind ?_
  rintro (_ | word) taken
  · exact (paren_alike nested).weaken (Nat.sub_le _ _) fun _ => Nat.sub_le _ _
  · simp only [present] at taken ⊢
    refine (Paired.take? _).bind ?_
    rintro (_ | opening) _
    · have warned : pairing.Paired (size - 1) (fun _ => 0) id _ _ :=
        .warn (implicitStringWarning word.value)
      exact warned.bind fun _ _ => .pure rfl
    · have argument := (nested taken).2.weaken (Nat.sub_le _ 1) fun _ => Nat.le_refl _
      refine (arguments_alike argument (by omega) (by omega)).bind ?_
      intro inside _
      refine (Paired.take _).bind ?_
      intro closing _
      rw [← Expr.movedAll_eq_map]
      exact .pure rfl

theorem concatenation_alike
    (operand : pairing.Alike size (disjunction bound inner) (disjunction bound' inner'))
    (enough : size < bound) (enough' : size < bound') :
    pairing.Alike size (concatenation bound inner) (concatenation bound' inner') := by
  refine operand.bind ?_
  rintro (_ | first) _
  · exact .pure rfl
  · have rest := operand.weaken (Nat.sub_le size 1) fun _ => Nat.le_refl _
    refine (foldConcat_alike rest (by omega) (by omega) first).bind ?_
    exact fun result _ => .pure rfl

theorem parseIn_alike (nested : pairing.NestedAlike size inner inner')
    (enough : size < bound) (enough' : size < bound') (level : Level) :
    pairing.Alike size (level.parseIn bound inner) (level.parseIn bound' inner') := by
  induction level using Level.chain_induction with
  | tightest => exact literal_alike
  | step level ih =>
    cases level with
    | expression | disjunction | conjunction | equality | relational | additive | multiplicative =>
      exact binaryLevel_alike _ ih enough enough'
    | concatenation => exact concatenation_alike ih enough enough'
    | minus | slash | not => exact prefixLevel_alike _ _ ih enough enough'
    | call => exact call_alike nested enough enough'
    | paren => exact paren_alike nested
    | reference => exact reference_alike
    | literal => exact literal_alike

theorem nested_alike (enough : size ≤ bound) (enough' : size ≤ bound') :
    pairing.NestedAlike size (nested bound) (nested bound') := by
  induction bound generalizing size bound' with
  | zero => exact fun some => by omega
  | succ bound ih =>
    intro some
    obtain _ | bound' := bound'
    · omega
    have deeper : pairing.NestedAlike (size - 1) (nested bound) (nested bound') :=
      ih (by omega) (by omega)
    exact ⟨parseIn_alike deeper (by omega) (by omega) .expression,
      parseIn_alike deeper (by omega) (by omega) .concatenation⟩

theorem parseWithin_alike (pairing : Pairing τ) (enough : size < bound) (enough' : size < bound')
    (level : Level) : pairing.Alike size (level.parseWithin bound) (level.parseWithin bound') := by
  rw [Level.parseWithin, Level.parseWithin]
  exact parseIn_alike (nested_alike (by omega) (by omega)) enough enough' level

end StyleExpr.Pairing
