import StyleExpr.Expr.Basic
import StyleExpr.Text.Hexadecimal

/-! The canonical source text of an expression tree. Every operation is in parentheses, so the text
shows the grouping of the tree and is read as the same tree again. -/

namespace StyleExpr

inductive WritingFault where
  /-- The operator cannot stand in this kind of operation. -/
  | noSpelling (operator : Operator)
  /-- The bare node has no text. -/
  | noForm
  /-- A colour needs three channels. -/
  | channelCount (count : Nat)
  /-- A colour is given as a value that has no parts. -/
  | noChannels (value : Value)
  /-- A colour is given as three characters. -/
  | textChannels
  /-- A number is given as a value that shows an exponent mark but is no number. -/
  | notNumeric (value : Value)
  deriving DecidableEq

def WritingFault.message : WritingFault → Text
  | noSpelling operator =>
    "<Operator." ++ operator.label.toUpper ++ ": '" ++ operator.label ++ "'>"
  | noForm => "No expression emitter for kind 'node'"
  | channelCount count =>
    if count < 3 then
      "not enough values to unpack (expected 3, got " ++ toString count ++ ")"
    else "too many values to unpack (expected 3)"
  | noChannels value => "cannot unpack non-iterable " ++ value.form ++ " object"
  | textChannels => "Unknown format code 'x' for object of type 'str'"
  | notNumeric _ => "[<class 'decimal.ConversionSyntax'>]"

namespace Canonical

def infixOf? : Operator → Option Text
  | .comma => some ", "
  | .concat => some " "
  | .or => some " or "
  | .and => some " and "
  | .equal => some " == "
  | .notEqual => some " != "
  | .greater => some " > "
  | .greaterEqual => some " >= "
  | .less => some " < "
  | .lessEqual => some " <= "
  | .plus => some " + "
  | .minus => some " - "
  | .times => some " * "
  | .divide => some " / "
  | .modulo => some " % "
  | .not => none

def prefixOf? : Operator → Option Text
  | .minus => some "-"
  | .divide => some "/"
  | .not => some "not "
  | _ => none

/-- A backslash in front of each backslash and each double quote. -/
def escaped : List CodePoint → List CodePoint
  | [] => []
  | c :: rest => if c = '\\' || c = '\x22' then '\\' :: c :: escaped rest else c :: escaped rest

def string (content : Text) : Text :=
  Text.ofList (scalar '\x22' :: escaped content.toList ++ [scalar '\x22'])

/-- A number without exponent. A value of another form is displayed. -/
def number : Value → Except WritingFault Text
  | .float value => .ok value.positional
  | value =>
    if value.display.toList.any fun c => c = 'e' || c = 'E' then .error (.notNumeric value)
    else .ok value.display

/-- A channel has at least two lower case hexadecimal digits; the sign of a negative one counts. -/
def channel (value : Int) : List CodePoint :=
  if value < 0 then '-' :: Text.hexadecimal 1 value.natAbs else Text.hexadecimal 2 value.natAbs

def color : Value → Except WritingFault Text
  | .tuple [red, green, blue] =>
    .ok (Text.ofList (scalar '#' :: channel red ++ channel green ++ channel blue))
  | .tuple items => .error (.channelCount items.length)
  | .text content =>
    .error (if content.length = 3 then .textChannels else .channelCount content.length)
  | value => .error (.noChannels value)

def literal (kind : LiteralKind) (value : Value) (unit : Option Text) :
    Except WritingFault Text :=
  match kind with
  | .string => .ok (string value.plain)
  | .number => (number value).map (· ++ unit.getD "")
  | .color => color value
  | .bool => .ok (if value.isTrue then "true" else "false")

def spelling (find? : Operator → Option Text) (operator : Operator) :
    Except WritingFault Text :=
  match find? operator with
  | some text => .ok text
  | none => .error (.noSpelling operator)

end Canonical

namespace Expr

open Canonical

mutual

/-- The source text of a tree. Operands are written in front of looking at their operator, so a
fault inside an operand wins over one of its operator. -/
def write : Expr → Except WritingFault Text
  | .binary left right operator _ => do
    let first ← left.write
    let second ← right.write
    let between ← spelling infixOf? operator
    return "(" ++ first ++ between ++ second ++ ")"
  | .unary operand operator _ => do
    let inner ← operand.write
    let front ← spelling prefixOf? operator
    return "(" ++ front ++ inner ++ ")"
  | .call name arguments _ => do
    let inner ← writeAll arguments
    return name.plain ++ "(" ++ Text.intercalate ", " inner ++ ")"
  | .reference name _ => return "!" ++ name.plain
  | .literal kind value unit _ => Canonical.literal kind value unit
  | .bare _ => .error .noForm

def writeAll : List Expr → Except WritingFault (List Text)
  | [] => return []
  | first :: rest => return (← first.write) :: (← writeAll rest)

end

end Expr

/-- A writer keeps the texts of the trees that were written for its output. -/
structure Writer where
  lines : List Text

namespace Writer

def empty : Writer := ⟨[]⟩

def output (writer : Writer) : Text :=
  Text.intercalate "\n" writer.lines

/-- Writes a tree and keeps its text. A tree that cannot be written leaves no trace. -/
def write (expr : Expr) : EStateM WritingFault Writer Text := fun writer =>
  match expr.write with
  | .ok text => .ok text ⟨writer.lines ++ [text]⟩
  | .error fault => .error fault writer

end Writer

end StyleExpr
