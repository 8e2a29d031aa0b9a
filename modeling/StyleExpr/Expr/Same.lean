import StyleExpr.Expr.Basic

/-! Equality of expression trees, blind to the places of their nodes. -/

namespace StyleExpr.Expr

mutual

/-- Two nodes are the same when their forms agree, their values denote the same, and their parts
are the same. A missing unit differs from an empty one. -/
def same : Expr → Expr → Bool
  | .binary left right operator _, .binary left' right' operator' _ =>
    left.same left' && right.same right' && operator == operator'
  | .unary operand operator _, .unary operand' operator' _ =>
    operand.same operand' && operator == operator'
  | .call name arguments _, .call name' arguments' _ =>
    name.same name' && sameAll arguments arguments'
  | .reference name _, .reference name' _ => name.same name'
  | .literal kind value unit _, .literal kind' value' unit' _ =>
    kind == kind' && value.same value' && unit == unit'
  | .bare _, .bare _ => true
  | _, _ => false

def sameAll : List Expr → List Expr → Bool
  | [], [] => true
  | first :: rest, first' :: rest' => first.same first' && sameAll rest rest'
  | _, _ => false

end

end StyleExpr.Expr
