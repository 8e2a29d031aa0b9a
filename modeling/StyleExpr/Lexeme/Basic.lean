import StyleExpr.Fault
import StyleExpr.Lexeme.Color
import StyleExpr.Lexeme.Name
import StyleExpr.Lexeme.Number
import StyleExpr.Lexeme.Quotation
import StyleExpr.Lexeme.Symbol

/-! Lexemes: the longest text of a token at the front of a text, decided by its first one or two
characters. Places do not matter here; what is read depends on the characters alone. -/

namespace StyleExpr

/-- A token without its place. -/
structure Lexeme where
  kind : TokenKind
  value : Value
  unit : Option Text
  deriving DecidableEq

namespace Lexeme

inductive Flaw where
  | problem (problem : Problem)
  | numeral (fault : NumeralFault)
  deriving DecidableEq

/-- What is found at the front of a text, and how many characters that takes. A flawed lexeme takes
the characters in which its flaw shows. -/
structure Scan where
  length : Nat
  found : Except Flaw Lexeme

def isSpace (c : CodePoint) : Bool :=
  c = ' ' || c = '\t' || c = '\r' || c = '\n' || c = '\x0c'

/-- The lexeme that a whole name is: a keyword, a truth value, a colour or an identifier. -/
def ofName (name : List CodePoint) : Lexeme :=
  let word := Text.ofList name
  match spelled? name with
  | some kind => ⟨kind, .text word, none⟩
  | none =>
    match truthWord? word with
    | some truth => ⟨.bool, .bool truth, none⟩
    | none =>
      match namedColor? word with
      | some channels => ⟨.color, .tuple channels, none⟩
      | none => ⟨.identifier, .text word, none⟩

def scanName (text : List CodePoint) : Scan :=
  let name := nameChars text
  ⟨name.length, .ok (ofName name)⟩

/-- A reference is a sigil and a name, which may be spelled like a keyword. -/
def scanReference (rest : List CodePoint) : Scan :=
  let name := nameChars rest
  ⟨name.length + 1, .ok ⟨.reference, .text (Text.ofList name), none⟩⟩

def scanNumber (text : List CodePoint) : Scan :=
  let parts := numberParts text
  ⟨parts.length, match parts.value? with
    | .ok value => .ok ⟨.number, value, parts.unit?⟩
    | .error fault => .error (.numeral fault)⟩

/-- An unterminated text takes all characters up to the end. -/
def scanQuotation (rest : List CodePoint) : Scan :=
  match quotedBody? rest with
  | some body => ⟨body.length + 2, .ok ⟨.string, .text (Text.ofList (unescaped body)), none⟩⟩
  | none => ⟨rest.length + 1, .error (.problem .unterminatedString)⟩

def scanColor (rest : List CodePoint) : Scan :=
  let digits := colorDigits rest
  ⟨digits.length + 1, match channels? digits with
    | some channels => .ok ⟨.color, .tuple channels, none⟩
    | none => .error (.problem (.invalidColor (Text.ofList digits)))⟩

def scanSymbol (text : List CodePoint) : Option Scan :=
  (symbol? text).map fun (front, kind) =>
    ⟨front.length, .ok ⟨kind, .text (Text.ofList front), none⟩⟩

/-- The lexeme at the front of a text that starts with `c`. A character that starts none is left
unread. -/
def scan (c : CodePoint) (rest : List CodePoint) : Scan :=
  if Text.startsName c then scanName (c :: rest)
  else if (c = '!' || c = '$') && startsWith Text.startsName rest then scanReference rest
  else if Text.isDigit c || (c = '.' && startsWith Text.isDigit rest) then scanNumber (c :: rest)
  else if c = '\x22' then scanQuotation rest
  else if c = '#' then scanColor rest
  else (scanSymbol (c :: rest)).getD ⟨0, .error (.problem (.unexpectedCharacter c))⟩

end Lexeme

end StyleExpr
