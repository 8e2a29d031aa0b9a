import StyleExpr.Text.Alphanumeric
import StyleExpr.Value

/-! Names: words of letters, digits and low lines, joined by single hyphens. -/

namespace StyleExpr.Lexeme

def startsWith (isMember : CodePoint → Bool) : List CodePoint → Bool
  | c :: _ => isMember c
  | [] => false

/-- The characters of the longest name in front of a text. A hyphen belongs to the name only
between two word characters; `inside` says that one was read already. -/
def nameFront (inside : Bool) : List CodePoint → List CodePoint
  | [] => []
  | c :: rest =>
    if c = '-' then
      if inside && startsWith Text.isWord rest then c :: nameFront true rest else []
    else if Text.isWord c then c :: nameFront true rest
    else []

/-- The name at the front of a text; empty when no word character stands there. -/
def nameChars (text : List CodePoint) : List CodePoint :=
  nameFront false text

theorem nameFront_isPrefix (inside : Bool) (text : List CodePoint) :
    nameFront inside text <+: text := by
  induction text generalizing inside with
  | nil => exact List.prefix_rfl
  | cons c rest ih =>
    unfold nameFront
    split
    · split
      · exact List.cons_prefix_cons.mpr ⟨rfl, ih true⟩
      · exact List.nil_prefix
    · split
      · exact List.cons_prefix_cons.mpr ⟨rfl, ih true⟩
      · exact List.nil_prefix

/-- The colours that have a name. -/
def namedColors : List (Text × List Int) :=
  [("black", [0, 0, 0]), ("silver", [192, 192, 192]), ("gray", [128, 128, 128]),
    ("white", [255, 255, 255]), ("maroon", [128, 0, 0]), ("red", [255, 0, 0]),
    ("purple", [128, 0, 128]), ("fuchsia", [255, 0, 255]), ("green", [0, 128, 0]),
    ("lime", [0, 255, 0]), ("olive", [128, 128, 0]), ("yellow", [255, 255, 0]),
    ("navy", [0, 0, 128]), ("blue", [0, 0, 255]), ("teal", [0, 128, 128]), ("aqua", [0, 255, 255])]

def namedColor? (name : Text) : Option (List Int) :=
  namedColors.lookup name

def truthWord? (word : Text) : Option Bool :=
  if word = "true" then some true else if word = "false" then some false else none

end StyleExpr.Lexeme
