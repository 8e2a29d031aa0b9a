import StyleExpr.Text.Basic

/-! Double-quoted texts with backslash escapes. -/

namespace StyleExpr.Lexeme

/-- What stands in front of the first double quote that no backslash escapes. -/
def quotedBody? : List CodePoint → Option (List CodePoint)
  | [] => none
  | '\x22' :: _ => some []
  | ['\\'] => none
  | '\\' :: c :: rest => (quotedBody? rest).map ('\\' :: c :: ·)
  | c :: rest => (quotedBody? rest).map (c :: ·)

/-- Drops each escaping backslash and keeps the character behind it as it is. -/
def unescaped : List CodePoint → List CodePoint
  | [] => []
  | ['\\'] => []
  | '\\' :: c :: rest => c :: unescaped rest
  | c :: rest => c :: unescaped rest

end StyleExpr.Lexeme
