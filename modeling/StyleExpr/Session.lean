import StyleExpr.Expr.Canonical
import StyleExpr.Expr.Display
import StyleExpr.Reading
import StyleExpr.Text.Blank
import StyleExpr.Text.Lines

/-! An interactive session: one expression a line, and commands that switch its two modes. -/

namespace StyleExpr

structure Modes where
  /-- Shows the source text of each tree too. -/
  verbose : Bool
  /-- Shows the tokens of each line too. -/
  tokens : Bool
  deriving DecidableEq

inductive Command where
  | verbose | tokens
  deriving DecidableEq

namespace Session

open Text (line lines)

/-- The lower case of a character as far as that is ASCII: of the capitals, the letters of ASCII and
the sign for kelvin. -/
def lowerLetter : CodePoint → CodePoint
  | scalar c => if c = '\u212A' then 'k' else c.toLower
  | surrogate index => surrogate index

/-- Commands are known in any case and between blanks. -/
def command? (text : Text) : Option Command :=
  let word := Text.ofList ((Text.trimmedOf Text.isBlank text.toList).map lowerLetter)
  if word = "verbose-mode" then some .verbose
  else if word = "tokens-mode" then some .tokens
  else none

def apply (modes : Modes) : Command → Modes
  | .verbose => { modes with verbose := !modes.verbose }
  | .tokens => { modes with tokens := !modes.tokens }

def acknowledgement (modes : Modes) : Command → Text
  | .verbose => line ("[mode] >>> Verbose mode " ++ if modes.verbose then "ON" else "OFF")
  | .tokens => line ("[mode] >>> Tokens mode " ++ if modes.tokens then "ON" else "OFF")

/-- A fault with a place is described. Any other is unexpected: a heading and the last line of its
traceback are shown, the calls above that line are left out. -/
def faultText : Fault → Text
  | .malformed problem position => line ("[error] >>> " ++ problem.describe position.place)
  | .numeral fault => lines ["[error] >>>", "ValueError: " ++ fault.message, ""]
  | .uncountable => lines ["[error] >>>", "TypeError: " ++ Fault.uncountable.message, ""]

def leftoverNote {σ : Type} [TokenSource σ] (rest : σ) : Text :=
  match TokenSource.peek rest with
  | .ok (some token) _ =>
    line ("[warn] >>> Unparsed input from offset " ++ toString token.position.column)
  | .ok none _ => ""
  | .error fault _ => lines ["[error] >>>", fault.message, ""]

/-- What is shown of a tree: its display, in verbose mode its source text, and a note on the token
that it left. A tree without a source text ends the line there. -/
def exprText {σ : Type} [TokenSource σ] (verbose : Bool) (expr : Expr) (rest : σ) : Text :=
  line expr.display ++
    if verbose then
      match expr.write with
      | .ok text => line ("[source] >>> " ++ text) ++ leftoverNote rest
      | .error fault => lines ["[error] >>>", fault.message, ""]
    else leftoverNote rest

/-- Reads an expression from a source and shows what became of it. -/
def readingText {σ : Type} [TokenSource σ] (verbose : Bool) (source : σ) : Text :=
  let (reading, rest) := Reading.ofSource source
  lines (reading.warnings.map ("[warn] >>> " ++ ·)) ++
    match reading.outcome with
    | .ok expr => exprText verbose expr rest
    | .error fault => faultText fault

/-- What is shown for an expression line of the given number. In tokens mode the whole line is read
into tokens first, and the end of the line is known. -/
def evaluate (modes : Modes) (number : Nat) (text : Text) : Text :=
  if modes.tokens then
    match tokenize text ⟨number, 1⟩ with
    | .error fault => faultText fault
    | .ok tokens =>
      lines (tokens.map fun token => "[token] >>> " ++ token.display) ++
        readingText modes.verbose (StoredTokens.endingAt tokens ⟨number, text.length + 1⟩)
  else readingText modes.verbose (Lexer.ofText text ⟨number, 1⟩)

/-- What a line does: it leaves, or it answers and may change the modes. -/
inductive Effect where
  | leave
  | answer (text : Text) (modes : Modes)

/-- The effect of a line. Leaving needs the exact word; a blank line does nothing. -/
def effect (modes : Modes) (number : Nat) (text : Text) : Effect :=
  let word := Text.trimmed text
  if word = "exit" || word = "quit" then .leave
  else if word = "" then .answer "" modes
  else match command? text with
    | some command =>
      let changed := apply modes command
      .answer (acknowledgement changed command) changed
    | none => .answer (evaluate modes number text) modes

def greeting : Text := line "SassScript REPL. Type 'exit' or 'quit' to leave."

def prompt : Text := ">>> "

def farewell : Text := line "Exiting SassScript REPL."

/-- The output behind the greeting, for lines of which the first has the given number. At the end of
the input a line feed ends the line of the prompt. -/
def transcript (modes : Modes) (number : Nat) : List Text → Text
  | [] => prompt ++ "\n" ++ farewell
  | text :: rest =>
    prompt ++ match effect modes number text with
      | .leave => farewell
      | .answer answer changed => answer ++ transcript changed (number + 1) rest

def run (verbose : Bool) (input : List Text) : Text :=
  greeting ++ transcript ⟨verbose, false⟩ 1 input

/-- The lines of an input. Only line feeds end lines, and the last line need not have one. -/
def inputLines (input : Text) : List Text :=
  let pieces := input.toList.splitOn (scalar '\n')
  (if pieces.getLast? = some [] then pieces.dropLast else pieces).map Text.ofList

end Session

end StyleExpr
