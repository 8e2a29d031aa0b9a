import StyleExpr.Grammar.Levels

/-! The levels as a chain: each level but the last reads its operands with the next tighter one. What
holds of all levels is proved along this chain, once for each shape of level. -/

namespace StyleExpr

namespace Level

/-- The level that reads the operands of a level. The tightest one has no other below it. -/
def tighter : Level → Level
  | expression => concatenation
  | concatenation => disjunction
  | disjunction => conjunction
  | conjunction => equality
  | equality => relational
  | relational => additive
  | additive => multiplicative
  | multiplicative => minus
  | minus => slash
  | slash => not
  | not => call
  | call => paren
  | paren => reference
  | reference => literal
  | literal => literal

def operators : Level → List Operator
  | expression => [.comma]
  | disjunction => [.or]
  | conjunction => [.and]
  | equality => [.equal, .notEqual]
  | relational => [.greater, .greaterEqual, .less, .lessEqual]
  | additive => [.plus, .minus]
  | multiplicative => [.times, .divide, .modulo]
  | _ => []

def sign? : Level → Option (Operator × TokenKind)
  | minus => some (.minus, .minus)
  | slash => some (.divide, .divide)
  | not => some (.not, .not)
  | _ => none

theorem chain_induction {motive : Level → Prop} (tightest : motive literal)
    (step : ∀ level, motive level.tighter → motive level) (level : Level) : motive level := by
  have reference' := step reference tightest
  have paren' := step paren reference'
  have call' := step call paren'
  have not' := step not call'
  have slash' := step slash not'
  have minus' := step minus slash'
  have multiplicative' := step multiplicative minus'
  have additive' := step additive multiplicative'
  have relational' := step relational additive'
  have equality' := step equality relational'
  have conjunction' := step conjunction equality'
  have disjunction' := step disjunction conjunction'
  have concatenation' := step concatenation disjunction'
  have expression' := step expression concatenation'
  cases level <;> assumption

variable {σ : Type} [TokenSource σ] {bound : Nat} {inner : Grammar.Nested σ} {level : Level}

theorem parseIn_operators (joins : level.operators ≠ []) :
    level.parseIn bound inner =
      Grammar.binaryLevel bound (level.tighter.parseIn bound inner) level.operators := by
  cases level <;> first | rfl | exact absurd rfl joins

theorem parseIn_sign {operator : Operator} {kind : TokenKind}
    (found : level.sign? = some (operator, kind)) :
    level.parseIn bound inner =
      Grammar.prefixLevel operator kind (level.tighter.parseIn bound inner) bound := by
  cases level <;> cases found <;> rfl

end Level

end StyleExpr
