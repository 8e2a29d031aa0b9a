import StyleExpr.Expr.Canonical
import StyleExpr.Expr.Display
import StyleExpr.Expr.Record
import StyleExpr.Expr.Walk
import StyleExpr.Reading
import StyleExpr.Source.Excerpt
import StyleExpr.Text.Lines
import StyleExpr.Text.Utf8

/-! A run of the program on one expression: what it writes, and how it ends. -/

namespace StyleExpr

inductive FileProblem where
  | missing
  | directory
  /-- A part of the name in front of others is no directory. -/
  | notDirectory
  | nameTooLong
  /-- The name holds the character zero. -/
  | zeroInName
  deriving DecidableEq

def FileProblem.message : FileProblem → Text
  | missing => "No such file or directory"
  | directory => "Is a directory"
  | notDirectory => "Not a directory"
  | nameTooLong => "File name too long"
  | zeroInName => "embedded null byte"

/-- Why a run ends without an exit status. -/
inductive Abort where
  | unknownFormat (name : Text)
  | file (problem : FileProblem)
  | undecodable (fault : Text.Utf8Fault)
  | unreadable (fault : Fault)
  | unwritable (fault : WritingFault)
  /-- A line or column has too many digits to be written. -/
  | longNumber
  deriving DecidableEq

def Abort.message : Abort → Text
  | unknownFormat name => "Unknown output format: " ++ name
  | file problem => problem.message
  | undecodable fault => fault.message
  | unreadable fault => fault.message
  | unwritable fault => fault.message
  | longNumber => Numeral.unwritableMessage

/-- What a run wrote on its two channels, and its exit status unless it broke off. -/
structure Report where
  status : Except Abort Nat
  output : Text
  errors : Text

inductive Format where
  | display | json | source
  deriving DecidableEq

def Format.ofName? (name : Text) : Option Format :=
  if name = "repr" then some display
  else if name = "json" then some json
  else if name = "source" then some source
  else none

/-- The text of a tree. Only one format shows places, all of which have to be writable. -/
def Format.render (format : Format) (shown : Position → Place) (expr : Expr) :
    Except Abort Text :=
  match format with
  | display => .ok expr.display
  | json =>
    if expr.walk.all fun node => (shown node.position).isWritable then
      .ok (expr.record.json shown).layout
    else .error .longNumber
  | source => expr.write.mapError .unwritable

inductive Input where
  | text (content : Text)
  | file (bytes : List Nat)
  | noFile (problem : FileProblem)

/-- The text of an input. Files are UTF-8, and their lines may end in any of the usual ways. -/
def Input.content : Input → Except Abort Text
  | text content => .ok content
  | file bytes =>
    match Text.decodeUtf8 bytes with
    | .ok chars => .ok (Text.ofList ((Text.unifiedLines chars).map scalar))
    | .error fault => .error (.undecodable fault)
  | noFile problem => .error (.file problem)

structure Request where
  input : Input
  /-- The name of a format; only a run finds out whether there is one of that name. -/
  format : Text
  /-- Lists the tokens instead of reading an expression. -/
  listsTokens : Bool
  showsWarnings : Bool
  start : Place
  /-- What is written in front of a warning. -/
  warningLabel : Text

namespace Report

open Text (line lines)

def tokenLine (start : Place) (token : Token) : Text :=
  let place := start.shown token.position
  place.line.text ++ ":" ++ place.column.text ++ "\t" ++ token.display

/-- A fault with a place is reported, if the place can be written, and ends the run with status 1.
Any other breaks it off. -/
def ofFault (start : Place) (output warnings : Text) : Fault → Report
  | .malformed problem position =>
    let place := start.shown position
    if place.isWritable then
      ⟨.ok 1, output, warnings ++ line ("error: " ++ problem.describe place)⟩
    else ⟨.error .longNumber, output, warnings⟩
  | fault => ⟨.error (.unreadable fault), output, warnings⟩

/-- The note on a token that the expression left in its source. -/
def leftoverNote (start : Place) (token : Token) : Text :=
  let place := start.shown token.position
  "(unparsed input from line " ++ place.line.text ++ ", offset " ++ place.column.text ++ ")"

variable {σ : Type} [TokenSource σ]

/-- Lists the tokens in front of the first fault, as far as their places can be written. -/
def ofTokens (start : Place) (source : σ) : Report :=
  let (tokens, fault, _) := TokenSource.collect source
  let listed := tokens.takeWhile fun token => (start.shown token.position).isWritable
  let output := lines (listed.map (tokenLine start))
  if listed.length < tokens.length then ⟨.error .longNumber, output, ""⟩
  else match fault with
    | none => ⟨.ok 0, output, ""⟩
    | some fault => ofFault start output "" fault

def ofExpr (start : Place) (format : Format) (expr : Expr) (rest : σ) (warnings : Text) :
    Report :=
  match format.render start.shown expr with
  | .error abort => ⟨.error abort, "", warnings⟩
  | .ok text =>
    match TokenSource.peek rest with
    | .ok none _ => ⟨.ok 0, line text, warnings⟩
    | .ok (some token) _ =>
      if (start.shown token.position).isWritable then
        ⟨.ok 0, line text ++ line (leftoverNote start token), warnings⟩
      else ⟨.error .longNumber, line text, warnings⟩
    | .error fault _ => ⟨.error (.unreadable fault), line text, warnings⟩

/-- Runs the program on a source of tokens. -/
def ofSource (request : Request) (format : Format) (source : σ) : Report :=
  if request.listsTokens then ofTokens request.start source
  else
    let (reading, rest) := Reading.ofSource source
    let warnings :=
      if request.showsWarnings then lines (reading.warnings.map (request.warningLabel ++ ·)) else ""
    match reading.outcome with
    | .ok expr => ofExpr request.start format expr rest warnings
    | .error fault => ofFault request.start "" warnings fault

/-- Runs the program on a text. From a blank coordinate it reads no more than can be counted. -/
def ofText (request : Request) (format : Format) (text : Text) : Report :=
  match request.start.position? with
  | some position => ofSource request format (Lexer.ofText text position)
  | none => ofSource request format (Excerpt.ofText text request.start)

/-- Runs the program. An unknown format is found before the input is looked at. -/
def ofRequest (request : Request) : Report :=
  match Format.ofName? request.format with
  | none => ⟨.error (.unknownFormat request.format), "", ""⟩
  | some format =>
    match request.input.content with
    | .error abort => ⟨.error abort, "", ""⟩
    | .ok text => ofText request format text

end Report

end StyleExpr
