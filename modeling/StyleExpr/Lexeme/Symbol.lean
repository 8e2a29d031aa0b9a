import StyleExpr.Text.Basic
import StyleExpr.Token.Kind

/-! The fixed spellings of tokens. -/

namespace StyleExpr.Lexeme

def spelled? : List CodePoint → Option TokenKind
  | ['('] => some .openParen
  | [')'] => some .closeParen
  | [','] => some .comma
  | ['+'] => some .plus
  | ['-'] => some .minus
  | ['*'] => some .times
  | ['/'] => some .divide
  | ['%'] => some .modulo
  | ['=', '='] => some .equal
  | ['!', '='] => some .notEqual
  | ['>'] => some .greater
  | ['>', '='] => some .greaterEqual
  | ['<'] => some .less
  | ['<', '='] => some .lessEqual
  | ['a', 'n', 'd'] => some .and
  | ['o', 'r'] => some .or
  | ['n', 'o', 't'] => some .not
  | _ => none

/-- The longest fixed spelling of at most two characters at the front of a text. -/
def symbol? (text : List CodePoint) : Option (List CodePoint × TokenKind) :=
  let withSpelling (front : List CodePoint) := (spelled? front).map (front, ·)
  withSpelling (text.take 2) <|> withSpelling (text.take 1)

end StyleExpr.Lexeme
