import StyleExpr.CommandLine.Options
import StyleExpr.Report
import StyleExpr.Session

/-! What a command line leads to: a session, a run on one expression, or an answer at once. -/

namespace StyleExpr.CommandLine

inductive Plan where
  | session (verbose : Bool)
  /-- A run on a text or, if it is one, a file of the name. -/
  | expression (settings : Settings) (source : Text)
  | help
  | refusal (fault : UsageFault)

/-- A session is held when it is asked for, and when there is nothing to read. -/
def plan (arguments : List Text) : Plan :=
  if arguments.isEmpty then .session false
  else match settings arguments with
    | .error fault => .refusal fault
    | .ok settings =>
      if settings.help then .help
      else match settings.source, settings.repl with
        | some source, false => .expression settings source
        | _, _ => .session settings.verbose

def Switch.summary : Switch → Text
  | help => "show this text"
  | file => "read the expression from the file named by the source"
  | format => "show the tree as repr, json or source"
  | tokens => "list the tokens instead of the tree"
  | noWarnings => "do not warn of words that are read as texts"
  | line => "number of the first line"
  | offset => "number of the first column"
  | repl => "hold an interactive session"
  | verbose => "show source texts in a session"

def helpText : Text :=
  "usage: sassexpr [options] [source]\n" ++
    Text.join ([Switch.help, .file, .format, .tokens, .noWarnings, .line, .offset, .repl,
      .verbose].map fun switch => "  " ++ switch.name ++ ": " ++ switch.summary ++ "\n")

def refusalReport (fault : UsageFault) : Report :=
  ⟨.ok 2, "", "sassexpr: error: " ++ fault.message ++ "\n"⟩

def request (settings : Settings) (input : Input) : Request where
  input
  format := settings.format
  listsTokens := settings.listsTokens
  showsWarnings := settings.showsWarnings
  start := ⟨settings.line, settings.offset⟩
  warningLabel := "WARNING: "

end StyleExpr.CommandLine
