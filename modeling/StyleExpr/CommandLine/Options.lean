import StyleExpr.Number.Numeral
import StyleExpr.Place

/-! The command line: which arguments are options, which are values, and what they ask for. -/

namespace StyleExpr.CommandLine

inductive Switch where
  | help | file | format | tokens | noWarnings | line | offset | repl | verbose
  deriving DecidableEq

/-- The spellings of the options, in the order in which messages list them. -/
def spellings : List (Text × Switch) :=
  [("-h", .help), ("--help", .help), ("-f", .file), ("--file", .file), ("--format", .format),
    ("--tokens", .tokens), ("--no-deprecation-warnings", .noWarnings), ("--line", .line),
    ("--offset", .offset), ("--repl", .repl), ("--verbose", .verbose)]

/-- All spellings of an option, as messages name it. -/
def Switch.name (switch : Switch) : Text :=
  Text.intercalate "/" ((spellings.filter (·.2 = switch)).map (·.1))

def Switch.takesValue : Switch → Bool
  | format | line | offset => true
  | help | file | tokens | noWarnings | repl | verbose => false

def formats : List Text := ["repr", "json", "source"]

inductive UsageFault where
  | ambiguous (argument : Text) (candidates : List Text)
  | missingValue (switch : Switch)
  | ignoredValue (switch : Switch) (value : Text)
  | notInteger (switch : Switch) (value : Text)
  | noChoice (switch : Switch) (value : Text) (choices : List Text)
  | unrecognized (arguments : List Text)
  deriving DecidableEq

def UsageFault.message : UsageFault → Text
  | ambiguous argument candidates =>
    "ambiguous option: " ++ argument ++ " could match " ++ Text.intercalate ", " candidates
  | missingValue switch => "argument " ++ switch.name ++ ": expected one argument"
  | ignoredValue switch value =>
    "argument " ++ switch.name ++ ": ignored explicit argument " ++ Text.quoted value
  | notInteger switch value =>
    "argument " ++ switch.name ++ ": invalid int value: " ++ Text.quoted value
  | noChoice switch value choices =>
    "argument " ++ switch.name ++ ": invalid choice: " ++ Text.quoted value ++ " (choose from " ++
      Text.intercalate ", " (choices.map Text.quoted) ++ ")"
  | unrecognized arguments => "unrecognized arguments: " ++ Text.intercalate " " arguments

inductive Argument where
  | value (text : Text)
  /-- The mark behind which no argument is an option. -/
  | endOfOptions
  | unknownOption (text : Text)
  /-- An option. A single letter in front of more letters may open a cluster of options. -/
  | option (switch : Switch) (isLetter : Bool) (attached : Option Text)
  deriving DecidableEq

private def splitAtEquals (text : Text) : Option (Text × Text) :=
  let chars := text.toList
  if chars.contains (scalar '=') then
    some (Text.ofList (chars.takeWhile (· != scalar '=')),
      Text.ofList ((chars.dropWhile (· != scalar '=')).drop 1))
  else none

/-- Numbers below zero are values. One line feed may follow. -/
def looksNegative (text : Text) : Bool :=
  let isDecimal (c : CodePoint) : Bool := (Text.decimalValue? c).isSome
  match text.toList with
  | '-' :: rest =>
    let rest := if rest.getLast? = some (scalar '\n') then rest.dropLast else rest
    let behind := (rest.dropWhile isDecimal)
    match behind with
    | [] => !rest.isEmpty
    | '.' :: part => !part.isEmpty && part.all isDecimal
    | _ => false
  | _ => false

/-- A spelling with two hyphens is a word, with one a letter. -/
def isLetterSpelling (spelling : Text) : Bool :=
  !spelling.startsWith "--"

/-- The options that an argument, no spelling itself, can abbreviate or begin with. -/
def candidates (argument : Text) : List (Text × Argument) :=
  if argument.startsWith "--" then
    let (front, attached) :=
      match splitAtEquals argument with
      | some (front, value) => (front, some value)
      | none => (argument, none)
    (spellings.filter (·.1.startsWith front)).map fun (spelling, switch) =>
      (spelling, .option switch false attached)
  else
    let letter := Text.ofList (argument.toList.take 2)
    let attached := Text.ofList (argument.toList.drop 2)
    spellings.filterMap fun (spelling, switch) =>
      if spelling = letter then some (spelling, .option switch true (some attached))
      else if spelling.startsWith argument then
        some (spelling, .option switch (isLetterSpelling spelling) none)
      else none

/-- The role of an argument in front of the end of options. -/
def classify (argument : Text) : Except UsageFault Argument :=
  if !argument.startsWith "-" then .ok (.value argument)
  else match spellings.lookup argument with
    | some switch => .ok (.option switch (isLetterSpelling argument) none)
    | none =>
      if argument = "-" then .ok (.value argument)
      else
        match (splitAtEquals argument).bind fun (front, value) =>
            (spellings.lookup front).map fun switch =>
              Argument.option switch (isLetterSpelling front) (some value) with
        | some option => .ok option
        | none =>
          match candidates argument with
          | [(_, option)] => .ok option
          | [] =>
            if looksNegative argument || argument.toList.contains (scalar ' ') then .ok (.value argument)
            else .ok (.unknownOption argument)
          | several => .error (.ambiguous argument (several.map (·.1)))

def classifyAll : List Text → Except UsageFault (List Argument)
  | [] => return []
  | "--" :: rest => return .endOfOptions :: rest.map .value
  | argument :: rest => return (← classify argument) :: (← classifyAll rest)

structure Settings where
  source : Option Text
  isFile : Bool
  format : Text
  listsTokens : Bool
  showsWarnings : Bool
  line : Coordinate
  offset : Coordinate
  repl : Bool
  verbose : Bool
  help : Bool
  deriving DecidableEq

def Settings.default : Settings :=
  ⟨none, false, "repr", false, true, .number 1, .number 1, false, false, false⟩

def Settings.switchOn (settings : Settings) : Switch → Settings
  | .file => { settings with isFile := true }
  | .tokens => { settings with listsTokens := true }
  | .noWarnings => { settings with showsWarnings := false }
  | .repl => { settings with repl := true }
  | .verbose => { settings with verbose := true }
  | .help => { settings with help := true }
  | .format | .line | .offset => settings

/-- Leaves an option blank. A blank format has the name that blanks are shown by. -/
def Settings.clear (settings : Settings) : Switch → Settings
  | .format => { settings with format := Coordinate.blank.text }
  | .line => { settings with line := .blank }
  | .offset => { settings with offset := .blank }
  | .help | .file | .tokens | .noWarnings | .repl | .verbose => settings

/-- Sets an option to a value; the last one counts. -/
def Settings.set (settings : Settings) (switch : Switch) (value : Text) :
    Except UsageFault Settings :=
  let integer (assign : Int → Settings) : Except UsageFault Settings :=
    match Numeral.signed? value with
    | some number => .ok (assign number)
    | none => .error (.notInteger switch value)
  match switch with
  | .format =>
    if value ∈ formats then .ok { settings with format := value }
    else .error (.noChoice switch value formats)
  | .line => integer fun number => { settings with line := .number number }
  | .offset => integer fun number => { settings with offset := .number number }
  | _ => .error (.ignoredValue switch value)

/-- Sets an option to the value attached to it. The mark of the end of options is no value even
there, and leaves the option blank. -/
def Settings.attach (settings : Settings) (switch : Switch) (attached : Text) :
    Except UsageFault Settings :=
  if attached = "--" then .ok (settings.clear switch) else settings.set switch attached

/-- Sets a cluster of letters, each an option without value, the last possibly with one. -/
def Settings.switchOnCluster (settings : Settings) (switch : Switch) :
    List CodePoint → Except UsageFault Settings
  | [] => .ok (settings.switchOn switch)
  | letter :: rest =>
    match spellings.lookup (Text.ofList ['-', letter]) with
    | some next => (settings.switchOn switch).switchOnCluster next rest
    | none => .error (.ignoredValue switch (Text.ofList (letter :: rest)))

/-- Takes the arguments in order. The first value is the source, and the mark of the end of options
next to it goes with it; values and marks beyond that are left over, like unknown options. -/
def takeArguments (settings : Settings) (leftover : List Text) :
    List Argument → Except UsageFault (Settings × List Text)
  | [] => .ok (settings, leftover)
  | .value text :: rest =>
    if settings.source.isSome then takeArguments settings (leftover ++ [text]) rest
    else
      match rest with
      | .endOfOptions :: rest => takeArguments { settings with source := some text } leftover rest
      | rest => takeArguments { settings with source := some text } leftover rest
  | .endOfOptions :: rest =>
    takeArguments settings
      (if settings.source.isSome then leftover ++ [Text.ofString "--"] else leftover) rest
  | .unknownOption text :: rest => takeArguments settings (leftover ++ [text]) rest
  | .option switch isLetter (some attached) :: rest => do
    let changed ←
      if switch.takesValue then settings.attach switch attached
      else if isLetter && !attached.isEmpty then settings.switchOnCluster switch attached.toList
      else .error (.ignoredValue switch attached)
    if changed.help then .ok (changed, []) else takeArguments changed leftover rest
  | .option switch _ none :: rest => do
    if switch.takesValue then
      match rest with
      | .value text :: rest => takeArguments (← settings.set switch text) leftover rest
      | _ => .error (.missingValue switch)
    else
      let changed := settings.switchOn switch
      if changed.help then .ok (changed, []) else takeArguments changed leftover rest

/-- Reads a command line. A request for help ends the reading. -/
def settings (arguments : List Text) : Except UsageFault Settings := do
  let roles ← classifyAll arguments
  let (settings, leftover) ← takeArguments .default [] roles
  if leftover.isEmpty then .ok settings else .error (.unrecognized leftover)

end StyleExpr.CommandLine
