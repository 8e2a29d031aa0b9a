import StyleExpr.Text.Alphanumeric
import StyleExpr.Text.Hexadecimal

/-! Colours written with a number sign and three or six hexadecimal digits. -/

namespace StyleExpr.Lexeme

def colorDigits (text : List CodePoint) : List CodePoint :=
  text.takeWhile Text.isAlphanumeric

/-- Red, green and blue. Of three digits each counts twice. -/
def channels? (digits : List CodePoint) : Option (List Int) :=
  match digits.mapM Text.hexValue? with
  | some [r, g, b] => some [17 * r, 17 * g, 17 * b]
  | some [r, r', g, g', b, b'] => some [16 * r + r', 16 * g + g', 16 * b + b']
  | _ => none

end StyleExpr.Lexeme
