import StyleExpr.Number.Double
import StyleExpr.Text.Blank
import StyleExpr.Text.Digit
import StyleExpr.Text.Quoted

/-! Numerals: texts of digits, with at most one point, read as numbers. Decimal digits of all
scripts count and may be mixed. -/

namespace StyleExpr

/-- An integer numeral of more digits is refused, and an integer of more digits is not written. -/
def integerDigitLimit : Nat := 4300

inductive NumeralFault where
  /-- An integer numeral holds a sign without place value. -/
  | notInteger (text : Text)
  /-- A numeral with a point holds a sign without place value. -/
  | notDecimal (text : Text)
  /-- An integer numeral is longer than `integerDigitLimit`. -/
  | tooLong (length : Nat)
  deriving DecidableEq

/-- The longest excerpt of a bad integer numeral that a message repeats. -/
def NumeralFault.excerptLength : Nat := 200

def NumeralFault.message : NumeralFault → Text
  | notInteger text =>
    "invalid literal for int() with base 10: " ++
      Text.ofList ((Text.quotedChars text.toList).take excerptLength)
  | notDecimal text => "could not convert string to float: " ++ Text.quoted text
  | tooLong length =>
    "Exceeds the limit (" ++ toString integerDigitLimit ++
      " digits) for integer string conversion: value has " ++ toString length ++
      " digits; use sys.set_int_max_str_digits() to increase the limit"

namespace Numeral

/-- Whether an integer has no more digits than can be written. Its sign does not count. -/
def isWritable (number : Int) : Bool :=
  number.natAbs < 10 ^ integerDigitLimit

def unwritableMessage : Text :=
  "Exceeds the limit (" ++ toString integerDigitLimit ++
    " digits) for integer string conversion; use sys.set_int_max_str_digits() to increase the limit"

/-- The place values of the digits, if every character has one. -/
def values? (text : List CodePoint) : Option (List Nat) :=
  text.mapM Text.decimalValue?

/-- The number written by place values, the highest place first. -/
def ofValues (values : List Nat) : Nat :=
  values.foldl (fun number value => 10 * number + value) 0

/-- The length of the part in front of the first sign without place value. -/
def valuedLength (text : List CodePoint) : Nat :=
  (text.takeWhile fun c => (Text.decimalValue? c).isSome).length

/-- Reads an integer. Length is judged on the digits before the first bad sign, and first. -/
def integer? (text : List CodePoint) : Except NumeralFault Nat :=
  if integerDigitLimit < valuedLength text then .error (.tooLong (valuedLength text))
  else match values? text with
    | some values => .ok (ofValues values)
    | none => .error (.notInteger (Text.ofList text))

/-- Reads digits around a point as the nearest `Double`. -/
def double? (whole part : List CodePoint) : Except NumeralFault Double :=
  match values? (whole ++ part) with
  | some values => .ok (Double.ofRatio false (ofValues values) (10 ^ part.length))
  | none => .error (.notDecimal (Text.ofList (whole ++ scalar '.' :: part)))

/-- Blanks around a signed integer: all but the four information separators of ASCII. -/
def isNumeralBlank (c : CodePoint) : Bool :=
  Text.isBlank c && !(0x1C ≤ c.toNat && c.toNat ≤ 0x1F)

/-- The place values of digits that single low lines may part. -/
def groupedValues? : List CodePoint → Option (List Nat)
  | [] => none
  | [c] => (Text.decimalValue? c).map ([·])
  | c :: '_' :: rest => do return (← Text.decimalValue? c) :: (← groupedValues? rest)
  | c :: rest => do return (← Text.decimalValue? c) :: (← groupedValues? rest)

/-- Reads an integer with an optional sign, low lines between digits and blanks around it. -/
def signed? (text : Text) : Option Int :=
  let magnitude? (digits : List CodePoint) : Option Int := do
    let values ← groupedValues? digits
    if integerDigitLimit < values.length then none else some (ofValues values)
  match Text.trimmedOf isNumeralBlank text.toList with
  | '-' :: digits => (magnitude? digits).map (- ·)
  | '+' :: digits => magnitude? digits
  | digits => magnitude? digits

end Numeral

end StyleExpr
