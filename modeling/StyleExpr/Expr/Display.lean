import StyleExpr.Expr.Basic

/-! The display of expression trees: every node by its form and parts, without places. -/

namespace StyleExpr.Expr

mutual

/-- A unit is glued to the value in front of it. -/
def display : Expr → Text
  | .binary left right operator _ =>
    "BinaryOp(" ++ operator.label ++ ", " ++ left.display ++ ", " ++ right.display ++ ")"
  | .unary operand operator _ =>
    "UnaryOp(" ++ operator.label ++ ", " ++ operand.display ++ ")"
  | .call name arguments _ =>
    "Funcall(" ++ name.display ++ ", [" ++ Text.intercalate ", " (displayAll arguments) ++ "])"
  | .reference name _ => "Variable(" ++ name.display ++ ")"
  | .literal kind value unit _ =>
    "Literal(" ++ kind.label ++ ", " ++ value.display ++ unit.getD "" ++ ")"
  | .bare _ => "ASTNode()"

def displayAll : List Expr → List Text
  | [] => []
  | first :: rest => first.display :: displayAll rest

end

end StyleExpr.Expr
