import StyleExpr.CommandLine.Run

/-! The program: it reads its input, and writes what the library answers. -/

namespace StyleExpr.Program

/-- A text as it is put out. The replacement character stands for a surrogate, which has no encoding. -/
def encodable (text : Text) : String :=
  String.ofList (text.toList.map fun
    | scalar c => c
    | surrogate _ => '\uFFFD')

def put (stream : IO.FS.Stream) (text : Text) : IO Unit :=
  stream.putStr (encodable text)

partial def holdSession (modes : Modes) (number : Nat) : IO Unit := do
  let stdout ← IO.getStdout
  put stdout Session.prompt
  stdout.flush
  let text ← (← IO.getStdin).getLine
  if text.isEmpty then put stdout ("\n" ++ Session.farewell)
  else
    let chars := text.toList
    let text := if chars.getLast? = some '\n' then String.ofList chars.dropLast else text
    match Session.effect modes number text with
    | .leave => put stdout Session.farewell
    | .answer answer changed =>
      put stdout answer
      holdSession changed (number + 1)

def readInput (settings : CommandLine.Settings) (source : Text) : IO Input := do
  if settings.isFile then
    if source.toList.contains (scalar '\x00') then return .noFile .zeroInName
    try
      let bytes ← IO.FS.readBinFile (encodable source)
      return .file (bytes.toList.map UInt8.toNat)
    catch
      | .noFileOrDirectory .. => return .noFile .missing
      | .inappropriateType _ _ "not a directory" => return .noFile .notDirectory
      | .inappropriateType .. => return .noFile .directory
      | .invalidArgument _ _ "name too long" => return .noFile .nameTooLong
      | fault => throw fault
  else return .text source

/-- Writes a report and gives its exit status, which is 1 for a run that broke off. -/
def writeReport (report : Report) : IO UInt32 := do
  put (← IO.getStdout) report.output
  put (← IO.getStderr) report.errors
  match report.status with
  | .ok status => return status.toUInt32
  | .error abort =>
    put (← IO.getStderr) (Text.line abort.message)
    return 1

end StyleExpr.Program

open StyleExpr in
def main (arguments : List String) : IO UInt32 := do
  match CommandLine.plan (arguments.map Text.ofString) with
  | .session verbose =>
    Program.put (← IO.getStdout) Session.greeting
    Program.holdSession ⟨verbose, false⟩ 1
    return 0
  | .help =>
    Program.put (← IO.getStdout) CommandLine.helpText
    return 0
  | .refusal fault => Program.writeReport (CommandLine.refusalReport fault)
  | .expression settings source =>
    let input ← Program.readInput settings source
    Program.writeReport (Report.ofRequest (CommandLine.request settings input))
