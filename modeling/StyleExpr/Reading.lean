import StyleExpr.Grammar.Levels
import StyleExpr.Source.Lexer
import StyleExpr.Source.Stored

/-! Reading one expression from a text or from a list of tokens. -/

namespace StyleExpr

/-- What became of a reading, and what it reported on the way. -/
structure Reading where
  outcome : Except Fault Expr
  warnings : List Text

namespace Reading

/-- Parses one expression from a source. The second part is the source as it is left. -/
def ofSource {σ : Type} [TokenSource σ] (source : σ) : Reading × σ :=
  match Parser.expression (Parser.ofSource source) with
  | .ok expr parser => (⟨.ok expr, parser.warnings⟩, parser.source)
  | .error fault parser => (⟨.error fault, parser.warnings⟩, parser.source)

/-- Reads an expression from a text whose first character has the given place. -/
def ofText (text : Text) (position : Position) : Reading × Lexer :=
  ofSource (Lexer.ofText text position)

end Reading

def parse (text : Text) : Except Fault Expr :=
  (Reading.ofText text ⟨1, 1⟩).1.outcome

end StyleExpr
