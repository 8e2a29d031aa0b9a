import StyleExpr.Text.Basic

/-! Lines as they are put out. -/

namespace StyleExpr.Text

def line (text : Text) : Text := text ++ "\n"

def lines (texts : List Text) : Text := Text.join (texts.map line)

end StyleExpr.Text
