import StyleExpr.Cursor
import StyleExpr.Lexeme.Basic
import StyleExpr.Source.Basic

/-! The lazy token source over a text. It reads at most one token ahead, so that a host can go on
reading behind an expression. -/

namespace StyleExpr

structure Lexer where
  cursor : Cursor
  /-- The token read ahead. -/
  shown : Option Token
  deriving DecidableEq

def Lexeme.tokenAt (lexeme : Lexeme) (position : Position) : Token :=
  ⟨lexeme.kind, lexeme.value, position, lexeme.unit⟩

def Lexeme.Flaw.faultAt (flaw : Lexeme.Flaw) (position : Position) : Fault :=
  match flaw with
  | problem cause => .malformed cause position
  | numeral cause => .numeral cause

namespace Cursor

def skipSpace (cursor : Cursor) : Cursor :=
  cursor.skip (cursor.ahead.takeWhile Lexeme.isSpace).length

/-- Reads the next token, if the text holds one behind its blanks. A token, like a fault, has the
place of its first character. The characters of a flawed lexeme stay read. -/
def nextToken : EStateM Fault Cursor (Option Token) := fun cursor =>
  let cursor := cursor.skipSpace
  match cursor.ahead with
  | [] => .ok none cursor
  | c :: rest =>
    let scan := Lexeme.scan c rest
    let behind := cursor.skip scan.length
    match scan.found with
    | .ok lexeme => .ok (some (lexeme.tokenAt cursor.position)) behind
    | .error flaw => .error (flaw.faultAt cursor.position) behind

def readName (cursor : Cursor) : Text × Cursor :=
  let name := Lexeme.nameChars cursor.ahead
  (Text.ofList name, cursor.skip name.length)

def readSymbol (cursor : Cursor) : Option Token × Cursor :=
  match Lexeme.symbol? cursor.ahead with
  | some (front, kind) =>
    let lexeme : Lexeme := ⟨kind, .text (Text.ofList front), none⟩
    (some (lexeme.tokenAt cursor.position), cursor.skip front.length)
  | none => (none, cursor)

end Cursor

namespace Lexer

/-- A lexer in front of a text whose first character has the given place. -/
def ofText (text : Text) (position : Position) : Lexer :=
  ⟨.start text.toList position, none⟩

/-- Lets an action on the cursor pass by the token read ahead. -/
def onCursor {α : Type} (action : EStateM Fault Cursor α) : EStateM Fault Lexer α := fun lexer =>
  match action lexer.cursor with
  | .ok result cursor => .ok result { lexer with cursor }
  | .error fault cursor => .error fault { lexer with cursor }

def peek : EStateM Fault Lexer (Option Token) := fun lexer =>
  match lexer.shown with
  | some token => .ok (some token) lexer
  | none =>
    match lexer.cursor.nextToken with
    | .ok token cursor => .ok token ⟨cursor, token⟩
    | .error fault cursor => .error fault ⟨cursor, none⟩

instance : TokenSource Lexer where
  peek := peek
  drop := fun lexer => { lexer with shown := none }
  ending := fun lexer => lexer.cursor.position
  bound := fun lexer => lexer.cursor.ahead.length + lexer.shown.toList.length

end Lexer

def tokenize (text : Text) (position : Position) : Except Fault (List Token) :=
  match TokenSource.drain (Lexer.ofText text position) with
  | .ok tokens _ => .ok tokens
  | .error fault _ => .error fault

end StyleExpr
