import StyleExpr.Text.Basic

/-! Blank characters, as they are trimmed from the ends of a line. -/

namespace StyleExpr.Text

/-- The separators of Unicode, the ASCII controls that part lines, and the four information
separators of ASCII. -/
def isBlank (c : CodePoint) : Bool :=
  let n := c.toNat
  (0x09 ≤ n && n ≤ 0x0D) || (0x1C ≤ n && n ≤ 0x20) || n = 0x85 || n = 0xA0 || n = 0x1680 ||
    (0x2000 ≤ n && n ≤ 0x200A) || n = 0x2028 || n = 0x2029 || n = 0x202F || n = 0x205F ||
    n = 0x3000

/-- The text without the characters of a class at its two ends. -/
def trimmedOf (drop : CodePoint → Bool) (text : List CodePoint) : List CodePoint :=
  ((text.dropWhile drop).reverse.dropWhile drop).reverse

def trimmed (text : Text) : Text :=
  Text.ofList (trimmedOf isBlank text.toList)

end StyleExpr.Text
