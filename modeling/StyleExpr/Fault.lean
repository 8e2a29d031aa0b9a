import StyleExpr.Number.Numeral
import StyleExpr.Place
import StyleExpr.Token.Kind

/-! Why reading an expression fails. -/

namespace StyleExpr

inductive Problem where
  | endOfText
  | unterminatedString
  | invalidColor (digits : Text)
  | unexpectedCharacter (c : CodePoint)
  /-- An expression is missing in front of a token, or of the end. -/
  | expectedExpression (found : Option TokenKind)
  /-- A token of one of the wanted kinds is missing in front of another, or of the end. -/
  | expectedToken (wanted : List TokenKind) (found : Option TokenKind)
  deriving DecidableEq

def describeNext : Option TokenKind → Text
  | some kind => kind.label ++ " token"
  | none => "end of text"

def Problem.message : Problem → Text
  | endOfText => "Unexpected end of text."
  | unterminatedString => "Unterminated string."
  | invalidColor digits => "Invalid color: '#" ++ digits ++ "'."
  | unexpectedCharacter c => "Unexpected character '" ++ Text.ofList [c] ++ "'."
  | expectedExpression found => "Expected expression, was " ++ describeNext found ++ "."
  | expectedToken wanted found =>
    "Expected " ++ Text.intercalate " or " (wanted.map (·.label)) ++ " token, was " ++
      describeNext found ++ "."

/-- Reading fails at a place, on a numeral that is no number, or at a character behind which no
place can be counted. -/
inductive Fault where
  | malformed (problem : Problem) (position : Position)
  | numeral (fault : NumeralFault)
  | uncountable
  deriving DecidableEq

def Fault.message : Fault → Text
  | malformed problem _ => problem.message
  | numeral fault => fault.message
  | uncountable => "'int' object is not iterable"

/-- A message followed by the place it speaks of. -/
def Problem.describe (problem : Problem) (place : Place) : Text :=
  problem.message ++ " (line " ++ place.line.text ++ ", offset " ++ place.column.text ++ ")"

end StyleExpr
