import StyleExpr.Text.Basic

/-! Hexadecimal numerals of a fixed least width, and their digits read back. -/

namespace StyleExpr.Text

/-- Lower case hexadecimal digits, filled with zeros on the left up to the width. -/
def hexadecimal (width n : Nat) : List CodePoint :=
  let digits := Text.digits 16 n
  List.replicate (width - digits.length) (scalar '0') ++ digits

/-- The value of a hexadecimal digit of ASCII, in either case. -/
def hexValue? (c : CodePoint) : Option Nat :=
  let n := c.toNat
  if 48 ≤ n && n ≤ 57 then some (n - 48)
  else if 97 ≤ n && n ≤ 102 then some (n - 87)
  else if 65 ≤ n && n ≤ 70 then some (n - 55)
  else none

end StyleExpr.Text
