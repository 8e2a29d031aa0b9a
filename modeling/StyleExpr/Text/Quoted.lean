import StyleExpr.Text.Hexadecimal
import StyleExpr.Text.Printable

/-! Text in quotes as a display of values shows it: delimiters and backslashes are escaped, and
so is every character that is not printable. -/

namespace StyleExpr.Text

/-- The apostrophe delimits a text, unless the text holds one and no double quote. -/
def delimiter (text : List CodePoint) : CodePoint :=
  if text.contains (scalar '\x27') && !text.contains (scalar '\x22') then '\x22' else '\x27'

/-- The escape of a code point has two, four or eight digits, whichever is the first to hold it. -/
def codeEscape (c : CodePoint) : List CodePoint :=
  let n := c.toNat
  if n < 0x100 then '\\' :: 'x' :: hexadecimal 2 n
  else if n < 0x10000 then '\\' :: 'u' :: hexadecimal 4 n
  else '\\' :: 'U' :: hexadecimal 8 n

/-- How one character is written between the given delimiters. -/
def quotedChar (quote c : CodePoint) : List CodePoint :=
  if c = quote || c = '\\' then ['\\', c]
  else if c = '\t' then ['\\', 't']
  else if c = '\n' then ['\\', 'n']
  else if c = '\r' then ['\\', 'r']
  else if isPrintable c then [c]
  else codeEscape c

def quotedChars (text : List CodePoint) : List CodePoint :=
  let quote := delimiter text
  quote :: text.flatMap (quotedChar quote) ++ [quote]

def quoted (text : Text) : Text :=
  Text.ofList (quotedChars text.toList)

end StyleExpr.Text
