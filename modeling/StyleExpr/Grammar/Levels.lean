import StyleExpr.Grammar.Parser

/-! The levels of the grammar, from the tightest to the loosest. A level yields nothing, and takes
no token, when its first token is missing; a required part that is missing behind it is a fault.
Levels of binary operators associate to the left.

Each level is given a bound on the repetitions of its loops and the parsers of what may stand
inside parentheses. Both only serve to define the levels; `Level.parse` chooses a bound that no
source exceeds. -/

namespace StyleExpr.Grammar

open StyleExpr.Parser

variable {σ : Type} [TokenSource σ]

/-- Parsers of what may stand inside parentheses: a whole expression, or one argument. -/
structure Nested (σ : Type) where
  expression : Parse σ (Option Expr)
  argument : Parse σ (Option Expr)

def implicitStringWarning (word : Value) : Text :=
  "Implicit strings are deprecated. '" ++ word.plain ++
    "' was not quoted. Please add double quotes. E.g. \"" ++ word.plain ++ "\"."

/-- Operands of a level joined by its operators, folded to the left. -/
def foldOperators (operand : Parse σ (Option Expr)) (operators : List Operator) :
    Nat → Expr → Parse σ Expr
  | 0, left => return left
  | bound + 1, left => do
    match ← accept fun kind => (Operator.ofToken? kind).filter (· ∈ operators) with
    | none => return left
    | some (_, operator) =>
      let right ← require operand
      foldOperators operand operators bound (.binary left right operator left.position)

def binaryLevel (bound : Nat) (operand : Parse σ (Option Expr)) (operators : List Operator) :
    Parse σ (Option Expr) := do
  match ← operand with
  | none => return none
  | some first => return some (← foldOperators operand operators bound first)

/-- Operands side by side, folded to the left. -/
def foldConcat (operand : Parse σ (Option Expr)) : Nat → Expr → Parse σ Expr
  | 0, left => return left
  | bound + 1, left => do
    match ← operand with
    | none => return left
    | some right => foldConcat operand bound (.binary left right .concat left.position)

/-- Operands behind any number of one prefix operator. -/
def prefixLevel (operator : Operator) (kind : TokenKind) (operand : Parse σ (Option Expr)) :
    Nat → Parse σ (Option Expr)
  | 0 => operand
  | bound + 1 => do
    match ← take? [kind] with
    | none => operand
    | some token =>
      let inner ← require (prefixLevel operator kind operand bound)
      return some (.unary inner operator token.position)

def literal : Parse σ (Option Expr) := do
  match ← accept LiteralKind.ofToken? with
  | none => return none
  | some (token, kind) => return some (.literal kind token.value token.unit token.position)

def reference : Parse σ (Option Expr) := do
  match ← take? [.reference] with
  | none => literal
  | some token => return some (.reference token.value token.position)

/-- Parentheses leave no node of their own. -/
def paren (nested : Nested σ) : Parse σ (Option Expr) := do
  match ← take? [.openParen] with
  | none => reference
  | some _ =>
    let inner ← require nested.expression
    let _ ← take [.closeParen]
    return some inner

def moreArguments (argument : Parse σ (Option Expr)) : Nat → Parse σ (List Expr)
  | 0 => return []
  | bound + 1 => do
    match ← take? [.comma] with
    | none => return []
    | some _ =>
      let next ← require argument
      return next :: (← moreArguments argument bound)

def arguments (bound : Nat) (argument : Parse σ (Option Expr)) : Parse σ (List Expr) := do
  match ← argument with
  | none => return []
  | some first => return first :: (← moreArguments argument bound)

/-- A word in front of an opening parenthesis is called; a word alone is a text, with a warning. -/
def call (bound : Nat) (nested : Nested σ) : Parse σ (Option Expr) := do
  match ← take? [.identifier] with
  | none => paren nested
  | some word =>
    match ← take? [.openParen] with
    | none =>
      warn (implicitStringWarning word.value)
      return some (.literal .string word.value none word.position)
    | some _ =>
      let inner ← arguments bound nested.argument
      let _ ← take [.closeParen]
      return some (.call word.value inner word.position)

def notLevel (bound : Nat) (nested : Nested σ) : Parse σ (Option Expr) :=
  prefixLevel .not .not (call bound nested) bound

def slashLevel (bound : Nat) (nested : Nested σ) : Parse σ (Option Expr) :=
  prefixLevel .divide .divide (notLevel bound nested) bound

def minusLevel (bound : Nat) (nested : Nested σ) : Parse σ (Option Expr) :=
  prefixLevel .minus .minus (slashLevel bound nested) bound

def multiplicative (bound : Nat) (nested : Nested σ) : Parse σ (Option Expr) :=
  binaryLevel bound (minusLevel bound nested) [.times, .divide, .modulo]

def additive (bound : Nat) (nested : Nested σ) : Parse σ (Option Expr) :=
  binaryLevel bound (multiplicative bound nested) [.plus, .minus]

def relational (bound : Nat) (nested : Nested σ) : Parse σ (Option Expr) :=
  binaryLevel bound (additive bound nested) [.greater, .greaterEqual, .less, .lessEqual]

def equality (bound : Nat) (nested : Nested σ) : Parse σ (Option Expr) :=
  binaryLevel bound (relational bound nested) [.equal, .notEqual]

def conjunction (bound : Nat) (nested : Nested σ) : Parse σ (Option Expr) :=
  binaryLevel bound (equality bound nested) [.and]

def disjunction (bound : Nat) (nested : Nested σ) : Parse σ (Option Expr) :=
  binaryLevel bound (conjunction bound nested) [.or]

def concatenation (bound : Nat) (nested : Nested σ) : Parse σ (Option Expr) := do
  match ← disjunction bound nested with
  | none => return none
  | some first => return some (← foldConcat (disjunction bound nested) bound first)

def expression (bound : Nat) (nested : Nested σ) : Parse σ (Option Expr) :=
  binaryLevel bound (concatenation bound nested) [.comma]

/-- Parsers for what stands inside parentheses nested no deeper than a bound. -/
def nested : Nat → Nested σ
  | 0 => ⟨return none, return none⟩
  | bound + 1 =>
    ⟨expression (bound + 1) (nested bound), concatenation (bound + 1) (nested bound)⟩

end Grammar

/-- The levels of the grammar, the loosest first. -/
inductive Level where
  | expression | concatenation | disjunction | conjunction | equality | relational | additive
  | multiplicative | minus | slash | not | call | paren | reference | literal
  deriving DecidableEq

namespace Level

variable {σ : Type} [TokenSource σ]

/-- The parser of a level, given a bound on repetitions and the parsers of what stands in parentheses. -/
def parseIn (bound : Nat) (inner : Grammar.Nested σ) : Level → Parse σ (Option Expr)
  | expression => Grammar.expression bound inner
  | concatenation => Grammar.concatenation bound inner
  | disjunction => Grammar.disjunction bound inner
  | conjunction => Grammar.conjunction bound inner
  | equality => Grammar.equality bound inner
  | relational => Grammar.relational bound inner
  | additive => Grammar.additive bound inner
  | multiplicative => Grammar.multiplicative bound inner
  | minus => Grammar.minusLevel bound inner
  | slash => Grammar.slashLevel bound inner
  | not => Grammar.notLevel bound inner
  | call => Grammar.call bound inner
  | paren => Grammar.paren inner
  | reference => Grammar.reference
  | literal => Grammar.literal

/-- The parser of a level, given a bound on the tokens that are left. -/
def parseWithin (bound : Nat) (level : Level) : Parse σ (Option Expr) :=
  level.parseIn bound (Grammar.nested bound)

def parse (level : Level) : Parse σ (Option Expr) := fun parser =>
  level.parseWithin (TokenSource.bound parser.source + 1) parser

end Level

namespace Parser

variable {σ : Type} [TokenSource σ]

def ofSource (source : σ) : Parser σ :=
  ⟨source, []⟩

def arguments : Parse σ (List Expr) := fun parser =>
  let bound := TokenSource.bound parser.source + 1
  Grammar.arguments bound (Level.concatenation.parseWithin bound) parser

/-- Parses one expression. What follows it is left in the source. -/
def expression : Parse σ Expr :=
  require Level.expression.parse

end Parser

end StyleExpr
