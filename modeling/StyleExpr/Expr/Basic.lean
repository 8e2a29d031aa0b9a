import StyleExpr.Position
import StyleExpr.Token.Kind
import StyleExpr.Value

/-! Expression trees. -/

namespace StyleExpr

/-- A node carries the place where it starts. Names are values, as the tokens that give them. -/
inductive Expr where
  | binary (left right : Expr) (operator : Operator) (position : Position)
  | unary (operand : Expr) (operator : Operator) (position : Position)
  | call (name : Value) (arguments : List Expr) (position : Position)
  | reference (name : Value) (position : Position)
  | literal (kind : LiteralKind) (value : Value) (unit : Option Text) (position : Position)
  /-- A node of no particular form. Reading never builds one. -/
  | bare (position : Position)

namespace Expr

def position : Expr → Position
  | binary _ _ _ position => position
  | unary _ _ position => position
  | call _ _ position => position
  | reference _ position => position
  | literal _ _ _ position => position
  | bare position => position

/-- The nodes directly below, in source order. -/
def children : Expr → List Expr
  | binary left right _ _ => [left, right]
  | unary operand _ _ => [operand]
  | call _ arguments _ => arguments
  | reference .. | literal .. | bare _ => []

inductive Form where
  | binary | unary | call | reference | literal | bare
  deriving DecidableEq

def Form.label : Form → Text
  | binary => "binary_op"
  | unary => "unary_op"
  | call => "funcall"
  | reference => "variable"
  | literal => "literal"
  | bare => "node"

def form : Expr → Form
  | binary .. => .binary
  | unary .. => .unary
  | call .. => .call
  | reference .. => .reference
  | literal .. => .literal
  | bare _ => .bare

theorem sizeOf_lt_of_mem_children {child node : Expr} (member : child ∈ node.children) :
    sizeOf child < sizeOf node := by
  cases node with
  | binary left right operator position =>
    simp only [children, List.mem_cons, List.not_mem_nil, or_false] at member
    rcases member with rfl | rfl <;> simp only [binary.sizeOf_spec] <;> omega
  | unary operand operator position =>
    simp only [children, List.mem_cons, List.not_mem_nil, or_false] at member
    subst member
    simp only [unary.sizeOf_spec]
    omega
  | call name arguments position =>
    have := List.sizeOf_lt_of_mem member
    simp only [children] at this
    simp only [call.sizeOf_spec]
    omega
  | reference | literal | bare => simp [children] at member

end Expr

end StyleExpr
