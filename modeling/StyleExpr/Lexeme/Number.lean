import StyleExpr.Number.Numeral
import StyleExpr.Text.Alphabetic
import StyleExpr.Value

/-! Numbers: digits, with a point only in front of a digit, and a unit glued to them. -/

namespace StyleExpr.Lexeme

/-- The point and the digits behind it; nothing when no digit follows the point. -/
def fractionChars : List CodePoint → List CodePoint
  | '.' :: rest =>
    let digits := rest.takeWhile Text.isDigit
    if digits.isEmpty then [] else '.' :: digits
  | _ => []

/-- A unit is one percent sign or a run of letters. -/
def unitChars : List CodePoint → List CodePoint
  | '%' :: _ => ['%']
  | text => text.takeWhile Text.isLetter

structure NumberParts where
  whole : List CodePoint
  /-- Empty, or the point with the digits behind it. -/
  fraction : List CodePoint
  unit : List CodePoint

def numberParts (text : List CodePoint) : NumberParts :=
  let whole := text.takeWhile Text.isDigit
  let fraction := fractionChars (text.drop whole.length)
  ⟨whole, fraction, unitChars (text.drop (whole.length + fraction.length))⟩

namespace NumberParts

def length (parts : NumberParts) : Nat :=
  parts.whole.length + parts.fraction.length + parts.unit.length

/-- A number without a point is an integer, else the nearest double. -/
def value? (parts : NumberParts) : Except NumeralFault Value :=
  match parts.fraction with
  | [] => (Numeral.integer? parts.whole).map fun number => .int number
  | _ :: part => (Numeral.double? parts.whole part).map .float

def unit? (parts : NumberParts) : Option Text :=
  if parts.unit.isEmpty then none else some (Text.ofList parts.unit)

end NumberParts

end StyleExpr.Lexeme
