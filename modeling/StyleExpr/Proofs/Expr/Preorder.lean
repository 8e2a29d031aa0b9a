import StyleExpr.Expr.Walk

/-! The nodes of a tree in the order of its walk: the root, then its parts behind one another. The first
node that does not join two operands is the one that is reached by following left operands. -/

namespace StyleExpr.Expr

/-- The first node that joins no two operands, behind left operands alone. -/
def leftmost : Expr → Expr
  | binary left _ _ _ => left.leftmost
  | node => node

/-- The nodes that join no two operands, each in front of those below it. -/
def headed (expr : Expr) : List Expr :=
  expr.walk.filter (·.form ≠ .binary)

variable {stack : List Expr} {expr node child : Expr}

@[simp] theorem visit_nil : visit [] = [] := by
  rw [visit]

theorem visit_cons (node : Expr) (stack : List Expr) :
    visit (node :: stack) = node :: visit (node.children ++ stack) := by
  rw [visit]

theorem visit_append (front back : List Expr) : visit (front ++ back) = visit front ++ visit back := by
  induction front using visit.induct with
  | case1 => rw [visit_nil, List.nil_append, List.nil_append]
  | case2 node front ih =>
    rw [List.cons_append, visit_cons, visit_cons, ← List.append_assoc, ih, List.cons_append]

theorem visit_eq_flatMap (stack : List Expr) : visit stack = stack.flatMap walk := by
  induction stack with
  | nil => exact visit_nil
  | cons node stack ih =>
    rw [← List.singleton_append, visit_append, ih]
    rfl

theorem walk_eq (node : Expr) : node.walk = node :: node.children.flatMap walk := by
  rw [walk, visit_cons, List.append_nil, visit_eq_flatMap]

/-- What holds of the trees on the stack, and of the nodes below a node that it holds of, holds of all
nodes that are visited. -/
theorem forall_visit {holds : Expr → Prop}
    (below : ∀ node, holds node → ∀ child ∈ node.children, holds child)
    (each : ∀ node ∈ stack, holds node) : ∀ node ∈ visit stack, holds node := by
  induction stack using visit.induct with
  | case1 => simp
  | case2 node stack ih =>
    rw [visit_cons]
    obtain ⟨here, others⟩ := List.forall_mem_cons.mp each
    refine List.forall_mem_cons.mpr ⟨here, ih ?_⟩
    exact List.forall_mem_append.mpr ⟨below node here, others⟩

theorem forall_walk {holds : Expr → Prop}
    (below : ∀ node, holds node → ∀ child ∈ node.children, holds child) (here : holds expr) :
    ∀ node ∈ expr.walk, holds node :=
  forall_visit below (List.forall_mem_singleton.mpr here)

theorem headed_eq (whole : node.form ≠ .binary) : node.headed = node :: node.children.flatMap headed := by
  rw [headed, walk_eq, List.filter_cons_of_pos (by simpa using whole), List.filter_flatMap]
  rfl

@[simp] theorem headed_binary (left right : Expr) (operator : Operator) (position : Position) :
    (binary left right operator position).headed = left.headed ++ right.headed := by
  rw [headed, walk_eq, List.filter_cons_of_neg (by simp [form])]
  simp [children, headed]

@[simp] theorem headed_unary (operand : Expr) (operator : Operator) (position : Position) :
    (unary operand operator position).headed = unary operand operator position :: operand.headed := by
  rw [headed_eq (by simp [form]), children, List.flatMap_singleton]

@[simp] theorem headed_call (name : Value) (arguments : List Expr) (position : Position) :
    (call name arguments position).headed =
      call name arguments position :: arguments.flatMap headed := by
  rw [headed_eq (by simp [form]), children]

@[simp] theorem headed_reference (name : Value) (position : Position) :
    (reference name position).headed = [reference name position] := by
  rw [headed_eq (by simp [form]), children, List.flatMap_nil]

@[simp] theorem headed_literal (kind : LiteralKind) (value : Value) (unit : Option Text)
    (position : Position) :
    (literal kind value unit position).headed = [literal kind value unit position] := by
  rw [headed_eq (by simp [form]), children, List.flatMap_nil]

theorem headed_subset (below : child ∈ node.children) : child.headed ⊆ node.headed := by
  refine fun inner member => List.mem_filter.mpr ⟨?_, (List.mem_filter.mp member).2⟩
  rw [walk_eq node]
  exact List.mem_cons_of_mem _ (List.mem_flatMap.mpr ⟨child, below, (List.mem_filter.mp member).1⟩)

theorem leftmost_of_form (whole : node.form ≠ .binary) : node.leftmost = node := by
  cases node with
  | binary => exact absurd rfl whole
  | unary | call | reference | literal | bare => rfl

/-- The walk meets the leftmost node before all others that join no operands. -/
theorem headed_leftmost (expr : Expr) : ∃ later, expr.headed = expr.leftmost :: later := by
  induction expr using leftmost.induct with
  | case1 left right operator position ih =>
    obtain ⟨later, same⟩ := ih
    exact ⟨later ++ right.headed, by rw [headed_binary, same]; rfl⟩
  | case2 node whole =>
    have form : node.form ≠ .binary := by
      cases node with
      | binary => exact (whole _ _ _ _ rfl).elim
      | unary | call | reference | literal | bare => nofun
    exact ⟨_, by rw [headed_eq form, leftmost_of_form form]⟩

theorem leftmost_mem_visit (visited : node ∈ visit stack) :
    node.leftmost ∈ (visit stack).filter (·.form ≠ .binary) := by
  have kept : ∀ node ∈ visit stack, node.headed ⊆ (visit stack).filter (·.form ≠ .binary) := by
    refine forall_visit (fun node inside child below => ?_) fun node member => ?_
    · exact List.Subset.trans (headed_subset below) inside
    · rw [visit_eq_flatMap, List.filter_flatMap]
      exact fun inner below => List.mem_flatMap.mpr ⟨node, member, below⟩
  obtain ⟨later, same⟩ := headed_leftmost node
  exact kept node visited (by rw [same]; exact List.mem_cons_self ..)

/-- The first visited node that joins no two operands is the leftmost one of the first tree. -/
theorem filter_visit_cons (node : Expr) (stack : List Expr) :
    ∃ later, (visit (node :: stack)).filter (·.form ≠ .binary) = node.leftmost :: later := by
  obtain ⟨later, same⟩ := headed_leftmost node
  refine ⟨later ++ (visit stack).filter (·.form ≠ .binary), ?_⟩
  rw [← List.singleton_append, visit_append, List.filter_append, ← List.cons_append, ← same]
  rfl

end StyleExpr.Expr
