import StyleExpr.Expr.Basic

/-! The nodes of a tree in the order of the source: each node in front of those below it. -/

namespace StyleExpr.Expr

mutual

def size : Expr → Nat
  | .binary left right _ _ => left.size + right.size + 1
  | .unary operand _ _ => operand.size + 1
  | .call _ arguments _ => sizeAll arguments + 1
  | .reference .. | .literal .. | .bare _ => 1

def sizeAll : List Expr → Nat
  | [] => 0
  | first :: rest => first.size + sizeAll rest

end

theorem sizeAll_append (first second : List Expr) :
    sizeAll (first ++ second) = sizeAll first + sizeAll second := by
  induction first with
  | nil => simp [sizeAll]
  | cons node rest ih => simp [sizeAll, ih, Nat.add_assoc]

theorem size_eq_sizeAll_children (node : Expr) : node.size = sizeAll node.children + 1 := by
  cases node <;> simp [size, children, sizeAll]

/-- Visits the nodes of the trees on a stack: the top one, then what lies below it, then the rest
of the stack. -/
def visit : List Expr → List Expr
  | [] => []
  | node :: stack => node :: visit (node.children ++ stack)
termination_by stack => sizeAll stack
decreasing_by
  simp only [sizeAll_append, sizeAll, size_eq_sizeAll_children]
  omega

def walk (node : Expr) : List Expr :=
  visit [node]

end StyleExpr.Expr
