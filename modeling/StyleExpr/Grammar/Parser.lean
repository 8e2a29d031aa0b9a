import StyleExpr.Expr.Basic
import StyleExpr.Source.Basic

/-! Parsers over token sources, and the steps they are made of. What a parser read and reported
before it failed stays read and reported. -/

namespace StyleExpr

/-- A token source being parsed, with the warnings given so far, the first one first. -/
structure Parser (σ : Type) where
  source : σ
  warnings : List Text

abbrev Parse (σ : Type) := EStateM Fault (Parser σ)

namespace Parser

variable {σ : Type}

/-- Lets an action on the source pass by the warnings. -/
def onSource {α : Type} (action : EStateM Fault σ α) : Parse σ α := fun parser =>
  match action parser.source with
  | .ok result source => .ok result { parser with source }
  | .error fault source => .error fault { parser with source }

def warn (message : Text) : Parse σ Unit := fun parser =>
  .ok () { parser with warnings := parser.warnings ++ [message] }

variable [TokenSource σ]

def peek : Parse σ (Option Token) :=
  onSource TokenSource.peek

/-- Takes the next token if its kind is accepted, together with what accepts it. -/
def accept {α : Type} (accepts : TokenKind → Option α) : Parse σ (Option (Token × α)) := do
  match ← peek with
  | none => return none
  | some token =>
    match accepts token.kind with
    | none => return none
    | some result =>
      modify fun parser => { parser with source := TokenSource.drop parser.source }
      return some (token, result)

def take? (kinds : List TokenKind) : Parse σ (Option Token) := do
  let taken ← accept fun kind => if kind ∈ kinds then some () else none
  return taken.map (·.1)

def nextKind : Parse σ (Option TokenKind) := do
  return (← peek).map (·.kind)

/-- Fails at the place of the next token, or of the end. -/
def fail {α : Type} (problem : Problem) : Parse σ α := do
  throw (.malformed problem (← onSource TokenSource.position))

def take (kinds : List TokenKind) : Parse σ Token := do
  match ← take? kinds with
  | some token => return token
  | none => fail (.expectedToken kinds (← nextKind))

/-- What a parser yields, which has to be an expression. -/
def require (parse : Parse σ (Option Expr)) : Parse σ Expr := do
  match ← parse with
  | some expr => return expr
  | none => fail (.expectedExpression (← nextKind))

end Parser

end StyleExpr
