import StyleExpr.Number.Decimal
import StyleExpr.Text.Hexadecimal

/-! JSON values and their layout over several lines, in ASCII. -/

namespace StyleExpr

inductive JsonValue where
  | null
  | bool (truth : Bool)
  | int (number : Int)
  | double (number : Double)
  | text (content : Text)
  | array (items : List JsonValue)
  /-- The fields of an object are written in their order. -/
  | object (fields : List (Text × JsonValue))

namespace JsonValue

/-- Code points above `0xFFFF` are written as two surrogates. -/
def codeEscape (c : CodePoint) : List CodePoint :=
  let n := c.toNat
  let unit (code : Nat) := scalar '\\' :: scalar 'u' :: Text.hexadecimal 4 code
  if n < 0x10000 then unit n
  else unit (0xD800 + (n - 0x10000) / 0x400) ++ unit (0xDC00 + (n - 0x10000) % 0x400)

/-- Printable ASCII stands for itself, but for the double quote and the backslash. -/
def escapedChar (c : CodePoint) : List CodePoint :=
  if c = '\x22' then ['\\', '\x22']
  else if c = '\\' then ['\\', '\\']
  else if c = '\n' then ['\\', 'n']
  else if c = '\r' then ['\\', 'r']
  else if c = '\t' then ['\\', 't']
  else if c = '\x0c' then ['\\', 'f']
  else if c = '\x08' then ['\\', 'b']
  else if 32 ≤ c.toNat && c.toNat < 127 then [c]
  else codeEscape c

def quoted (content : Text) : Text :=
  Text.ofList (scalar '\x22' :: content.toList.flatMap escapedChar ++ [scalar '\x22'])

def doubleText : Double → Text
  | .infinite negative => if negative then "-Infinity" else "Infinity"
  | .nan => "NaN"
  | number => number.display

/-- A line feed and two spaces for each level. -/
def newline (level : Nat) : Text :=
  Text.ofList ('\n' :: List.replicate (2 * level) ' ')

mutual

/-- The pieces of the layout of a value. Its first line is indented by what stands in front of it,
its other lines by the level. -/
def pieces (level : Nat) : JsonValue → List Text
  | null => ["null"]
  | bool truth => [if truth then "true" else "false"]
  | int number => [toString number]
  | double number => [doubleText number]
  | text content => [quoted content]
  | array [] => ["[]"]
  | array (first :: rest) =>
    "[" :: newline (level + 1) :: (pieces (level + 1) first ++ itemPieces level rest ++
      [newline level, "]"])
  | object [] => ["\x7b\x7d"]
  | object ((key, first) :: rest) =>
    "\x7b" :: newline (level + 1) :: quoted key :: ": " :: (pieces (level + 1) first ++
      fieldPieces level rest ++ [newline level, "\x7d"])

def itemPieces (level : Nat) : List JsonValue → List Text
  | [] => []
  | item :: rest =>
    "," :: newline (level + 1) :: (pieces (level + 1) item ++ itemPieces level rest)

def fieldPieces (level : Nat) : List (Text × JsonValue) → List Text
  | [] => []
  | (key, value) :: rest =>
    "," :: newline (level + 1) :: quoted key :: ": " :: (pieces (level + 1) value ++
      fieldPieces level rest)

end

def layout (value : JsonValue) : Text :=
  Text.join (value.pieces 0)

end JsonValue

end StyleExpr
