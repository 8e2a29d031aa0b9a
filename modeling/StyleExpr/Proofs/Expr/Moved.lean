import StyleExpr.Expr.Canonical
import StyleExpr.Expr.Same
import StyleExpr.Fault
import StyleExpr.Token.Basic

/-! Trees, tokens and faults with their places changed, and what does not depend on places. -/

namespace StyleExpr

/-- Induction over trees by the children of a node, whatever its form. -/
@[elab_as_elim]
theorem Expr.children_induction {motive : Expr → Prop}
    (node : ∀ expr, (∀ child ∈ expr.children, motive child) → motive expr) (expr : Expr) :
    motive expr := by
  induction size : sizeOf expr using Nat.strongRecOn generalizing expr with
  | _ size ih =>
    refine node expr fun child member => ?_
    exact ih (sizeOf child) (size ▸ sizeOf_lt_of_mem_children member) child rfl

/-- Induction over trees: a call may assume the statement of each of its arguments. -/
@[elab_as_elim]
theorem Expr.tree_induction {motive : Expr → Prop}
    (binary : ∀ left right operator position,
      motive left → motive right → motive (.binary left right operator position))
    (unary : ∀ operand operator position,
      motive operand → motive (.unary operand operator position))
    (call : ∀ name arguments position,
      (∀ argument ∈ arguments, motive argument) → motive (.call name arguments position))
    (reference : ∀ name position, motive (.reference name position))
    (literal : ∀ kind value unit position, motive (.literal kind value unit position))
    (bare : ∀ position, motive (.bare position)) (expr : Expr) : motive expr := by
  induction expr using children_induction with
  | node expr below =>
    cases expr with
    | binary left right operator position =>
      exact binary _ _ _ _ (below left (by simp [children])) (below right (by simp [children]))
    | unary operand operator position => exact unary _ _ _ (below operand (by simp [children]))
    | call name arguments position => exact call _ _ _ below
    | reference name position => exact reference _ _
    | literal kind value unit position => exact literal _ _ _ _
    | bare position => exact bare _

def Token.moved (place : Position → Position) (token : Token) : Token :=
  { token with position := place token.position }

def Fault.moved (place : Position → Position) : Fault → Fault
  | malformed problem position => malformed problem (place position)
  | numeral fault => numeral fault
  | uncountable => uncountable

namespace Expr

mutual

def moved (place : Position → Position) : Expr → Expr
  | binary left right operator position =>
    binary (left.moved place) (right.moved place) operator (place position)
  | unary operand operator position => unary (operand.moved place) operator (place position)
  | call name arguments position => call name (movedAll place arguments) (place position)
  | reference name position => reference name (place position)
  | literal kind value unit position => literal kind value unit (place position)
  | bare position => bare (place position)

def movedAll (place : Position → Position) : List Expr → List Expr
  | [] => []
  | first :: rest => first.moved place :: movedAll place rest

end

variable {place : Position → Position}

@[simp] theorem movedAll_eq_map (exprs : List Expr) :
    movedAll place exprs = exprs.map (moved place) := by
  induction exprs with
  | nil => rfl
  | cons first rest ih => simp only [movedAll, ih, List.map_cons]

@[simp] theorem position_moved (expr : Expr) : (expr.moved place).position = place expr.position := by
  cases expr <;> rfl

@[simp] theorem moved_id (expr : Expr) : expr.moved id = expr := by
  induction expr using tree_induction with
  | binary left right operator position left_ih right_ih => simp [moved, left_ih, right_ih]
  | unary operand operator position ih => simp [moved, ih]
  | call name arguments position ih =>
    have same : arguments.map (moved id) = arguments :=
      (List.map_congr_left ih).trans (List.map_id _)
    simp [moved, same]
  | reference | literal | bare => rfl

end Expr

@[simp] theorem Fault.moved_id (fault : Fault) : fault.moved id = fault := by
  cases fault <;> rfl

end StyleExpr
