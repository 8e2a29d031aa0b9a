import StyleExpr.Place
import StyleExpr.Source.Lexer

/-! A lexer that may read no more than a front part of its text. Up to there it answers as any lexer
does; a token or fault for which it would have to read on is not found. -/

namespace StyleExpr

structure Excerpt where
  lexer : Lexer
  /-- How many characters of the text may be read. -/
  reach : Nat
  deriving DecidableEq

namespace Excerpt

/-- The part of a text whose places can be counted from the place of its first character. -/
def ofText (text : Text) (start : Place) : Excerpt :=
  ⟨.ofText text start.origin, start.reach text.toList⟩

/-- What a lexer found, as far as it read no more than it may. -/
def peek : EStateM Fault Excerpt (Option Token) := fun excerpt =>
  match excerpt.lexer.peek with
  | .ok token lexer =>
    if lexer.cursor.index ≤ excerpt.reach then .ok token ⟨lexer, excerpt.reach⟩
    else .error .uncountable ⟨lexer, excerpt.reach⟩
  | .error fault lexer =>
    if lexer.cursor.index ≤ excerpt.reach then .error fault ⟨lexer, excerpt.reach⟩
    else .error .uncountable ⟨lexer, excerpt.reach⟩

instance : TokenSource Excerpt where
  peek := peek
  drop := fun excerpt => { excerpt with lexer := TokenSource.drop excerpt.lexer }
  ending := fun excerpt => TokenSource.ending excerpt.lexer
  bound := fun excerpt => TokenSource.bound excerpt.lexer

end Excerpt

end StyleExpr
