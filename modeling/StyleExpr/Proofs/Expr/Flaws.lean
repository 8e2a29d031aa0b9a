import Mathlib.Data.List.Perm.Basic
import StyleExpr.Number.Numeral
import StyleExpr.Proofs.Expr.Moved
import StyleExpr.Proofs.Expr.Preorder
import StyleExpr.Proofs.Number.Display

/-! Which trees have no source text, and why. A tree fails at its first flawed node, where the nodes are
taken in the order in which their texts are finished: a node behind all nodes below it. A writer keeps
the texts of the trees that it was told to keep and that have one. -/

namespace StyleExpr

/-- A literal value suits its kind. A number that is an integer is not too long, and a colour has any
number of channels. -/
inductive LiteralKind.Suits : LiteralKind → Value → Prop where
  | string (content : Text) : Suits .string (.text content)
  | int {number : Int} (short : Numeral.isWritable number = true) : Suits .number (.int number)
  | float (number : Double) : Suits .number (.float number)
  | color (channels : List Int) : Suits .color (.tuple channels)
  | bool (truth : Bool) : Suits .bool (.bool truth)

namespace Expr

/-- What is wrong with a node by itself, whatever stands below it. -/
def flaw? : Expr → Option WritingFault
  | binary _ _ operator _ => if operator = .not then some (.noSpelling operator) else none
  | unary _ operator _ =>
    if operator ∈ [.minus, .divide, .not] then none else some (.noSpelling operator)
  | literal .color (.tuple channels) _ _ =>
    if channels.length = 3 then none else some (.channelCount channels.length)
  | bare _ => some .noForm
  | call .. | reference .. | literal .. => none

/-- The nodes of a tree, the children one after another and a node behind those below it. -/
def postorder (expr : Expr) : List Expr :=
  (expr.children.attach.flatMap fun child => postorder child.val) ++ [expr]
termination_by sizeOf expr
decreasing_by exact sizeOf_lt_of_mem_children child.property

def Suited (expr : Expr) : Prop :=
  ∀ kind value unit position, literal kind value unit position ∈ expr.walk → kind.Suits value

variable {expr : Expr}

theorem postorder_eq (expr : Expr) : expr.postorder = expr.children.flatMap postorder ++ [expr] := by
  rw [postorder, List.flatMap_subtype, List.unattach_attach]
  exact fun _ _ => rfl

theorem postorder_perm_walk (expr : Expr) : expr.postorder.Perm expr.walk := by
  induction expr using children_induction with
  | node expr ih =>
    rw [postorder_eq, walk_eq]
    exact (List.perm_append_singleton ..).trans ((List.Perm.flatMap_left _ ih).cons _)

theorem Suited.child (suited : expr.Suited) {child : Expr} (below : child ∈ expr.children) :
    child.Suited := by
  intro kind value unit position member
  refine suited kind value unit position ?_
  rw [walk_eq]
  exact List.mem_cons_of_mem _ (List.mem_flatMap.mpr ⟨child, below, member⟩)

end Expr

/-- A result is the given fault, or a value where none is given. -/
def Meets {α : Type} (fault? : Option WritingFault) (result : Except WritingFault α) : Prop :=
  match fault? with
  | some fault => result = .error fault
  | none => ∃ value, result = .ok value

namespace Meets

variable {α β : Type} {fault? later? : Option WritingFault} {result : Except WritingFault α}

theorem ok (value : α) : Meets none (.ok value) :=
  ⟨value, rfl⟩

theorem error (fault : WritingFault) : Meets (some fault) (.error fault : Except WritingFault α) :=
  rfl

/-- What fails first decides. -/
theorem bind {next : α → Except WritingFault β} (first : Meets fault? result)
    (second : ∀ value, Meets later? (next value)) : Meets (fault?.or later?) (result >>= next) := by
  cases fault? with
  | some fault =>
    obtain rfl : result = .error fault := first
    exact .error fault
  | none =>
    obtain ⟨value, rfl⟩ := first
    exact second value

theorem map {f : α → β} (first : Meets fault? result) : Meets fault? (f <$> result) := by
  cases fault? with
  | some fault =>
    obtain rfl : result = .error fault := first
    exact .error fault
  | none =>
    obtain ⟨value, rfl⟩ := first
    exact .ok (f value)

theorem exists_ok_iff (meets : Meets fault? result) :
    (∃ value, result = .ok value) ↔ fault? = none := by
  cases fault? with
  | some fault =>
    obtain rfl : result = .error fault := meets
    simp
  | none => exact iff_of_true meets rfl

theorem eq_error_iff (meets : Meets fault? result) (fault : WritingFault) :
    result = .error fault ↔ fault? = some fault := by
  cases fault? with
  | some fault =>
    obtain rfl : result = .error _ := meets
    simp
  | none =>
    obtain ⟨value, rfl⟩ := meets
    simp

end Meets

namespace Canonical

theorem meets_joining (operator : Operator) :
    Meets (if operator = .not then some (.noSpelling operator) else none)
      (spelling infixOf? operator) := by
  cases operator <;> first | exact .error _ | exact .ok _

theorem meets_leading (operator : Operator) :
    Meets (if operator ∈ [.minus, .divide, .not] then none else some (.noSpelling operator))
      (spelling prefixOf? operator) := by
  cases operator <;> first | exact .error _ | exact .ok _

theorem meets_color (channels : List Int) :
    Meets (if channels.length = 3 then none else some (.channelCount channels.length))
      (color (.tuple channels)) := by
  match channels with
  | [red, green, blue] => exact .ok _
  | [] | [_] | [_, _] => exact .error _
  | _ :: _ :: _ :: _ :: others =>
    rw [if_neg (by simp)]
    exact .error _

theorem meets_literal {kind : LiteralKind} {value : Value} (suits : kind.Suits value)
    (unit : Option Text) (position : Position) :
    Meets (Expr.literal kind value unit position).flaw? (literal kind value unit) := by
  cases suits with
  | string content => exact .ok _
  | int short =>
    rw [literal, number_int]
    exact .ok _
  | float number => exact .ok _
  | color channels => exact meets_color channels
  | bool truth => exact .ok _

end Canonical

namespace Expr

open Canonical

theorem meets_writeAll {exprs : List Expr}
    (each : ∀ expr ∈ exprs, Meets (expr.postorder.findSome? flaw?) expr.write) :
    Meets ((exprs.flatMap postorder).findSome? flaw?) (writeAll exprs) := by
  induction exprs with
  | nil => exact .ok []
  | cons first rest ih =>
    obtain ⟨here, others⟩ := List.forall_mem_cons.mp each
    rw [List.flatMap_cons, List.findSome?_append, writeAll]
    exact here.bind fun _ => (ih others).map

theorem findSome?_postorder (expr : Expr) : expr.postorder.findSome? flaw? =
    ((expr.children.flatMap postorder).findSome? flaw?).or expr.flaw? := by
  rw [postorder_eq, List.findSome?_append, List.findSome?_singleton]

theorem meets_write {expr : Expr} (suited : expr.Suited) :
    Meets (expr.postorder.findSome? flaw?) expr.write := by
  induction expr using tree_induction with
  | binary left right operator position first second =>
    have before := first (suited.child (by simp [children]))
    have behind := second (suited.child (by simp [children]))
    rw [findSome?_postorder, children, List.flatMap_cons, List.flatMap_singleton,
      List.findSome?_append, Option.or_assoc, write]
    -- both operands are written in front of looking at the operator, as in the order of the nodes
    exact before.bind fun _ => behind.bind fun _ => (meets_joining operator).map
  | unary operand operator position ih =>
    have inner := ih (suited.child (by simp [children]))
    rw [findSome?_postorder, children, List.flatMap_singleton, write]
    exact inner.bind fun _ => (meets_leading operator).map
  | call name arguments position ih =>
    have each := meets_writeAll fun argument member => ih argument member (suited.child member)
    rw [findSome?_postorder, write]
    exact each.bind fun _ => .ok _
  | reference name position =>
    rw [findSome?_postorder]
    exact .ok _
  | literal kind value unit position =>
    rw [findSome?_postorder, write]
    refine meets_literal (suited kind value unit position ?_) unit position
    rw [walk_eq]
    exact List.mem_cons_self ..
  | bare position =>
    rw [findSome?_postorder, write]
    exact .error .noForm

end Expr

namespace Writer

/-- A call on a writer: a tree is written and its text kept for the output, or it is only written. -/
inductive Call where
  | keep (expr : Expr)
  | pass (expr : Expr)

namespace Call

def expr : Call → Expr
  | keep expr | pass expr => expr

def perform : Call → EStateM WritingFault Writer Text
  | keep expr => Writer.write expr
  | pass expr =>
    match expr.write with
    | .ok text => pure text
    | .error fault => throw fault

/-- What comes of a call, and the writer behind it. -/
def outcome (call : Call) (writer : Writer) : Except WritingFault Text × Writer :=
  match call.perform writer with
  | .ok text after => (.ok text, after)
  | .error fault after => (.error fault, after)

/-- The text that a call keeps, told by what came of the call. -/
def kept? : Call × Except WritingFault Text → Option Text
  | (keep _, .ok text) => some text
  | _ => none

end Call

/-- Makes the calls one after another, also behind a call that failed. Gives each call with what came of
it, and the writer behind the last one. -/
def run (writer : Writer) : List Call → List (Call × Except WritingFault Text) × Writer
  | [] => ([], writer)
  | call :: calls =>
    let (result, after) := call.outcome writer
    let (log, last) := run after calls
    ((call, result) :: log, last)

/-- What comes of a call does not depend on the writer, and a failed call leaves the writer as it was. -/
theorem Call.outcome_eq (call : Call) (writer : Writer) : call.outcome writer =
    (call.expr.write, ⟨writer.lines ++ (kept? (call, call.expr.write)).toList⟩) := by
  cases call with
  | keep tree =>
    simp only [outcome, perform, Writer.write, Call.expr]
    cases tree.write with
    | ok text => rfl
    | error fault => simp [kept?]
  | pass tree =>
    have kept : writer = ⟨writer.lines ++ []⟩ := by rw [List.append_nil]
    simp only [outcome, perform, Call.expr]
    cases tree.write with
    | ok text => exact congrArg (Prod.mk _) kept
    | error fault => exact congrArg (Prod.mk _) kept

theorem run_eq (writer : Writer) (calls : List Call) : writer.run calls =
    (calls.map fun call => (call, call.expr.write),
      ⟨writer.lines ++ (calls.map fun call => (call, call.expr.write)).filterMap Call.kept?⟩) := by
  induction calls generalizing writer with
  | nil => simp [run]
  | cons call calls ih =>
    simp only [run, Call.outcome_eq, ih, List.map_cons, List.filterMap_cons]
    cases Call.kept? (call, call.expr.write) <;> simp

end Writer

/-- A tree whose literals suit their kinds has a text exactly if none of its nodes is flawed, and else it
fails as the first flawed node does, a node coming behind those below it. The output of a writer is what
its calls kept, whichever of them failed, and no call changes what comes of a later one. -/
theorem write_meets_first_flaw :
    (∀ expr : Expr, expr.Suited →
      ((∃ text, expr.write = .ok text) ↔ ∀ node ∈ expr.walk, node.flaw? = none) ∧
      ∀ fault, expr.write = .error fault ↔ expr.postorder.findSome? Expr.flaw? = some fault) ∧
    ∀ calls : List Writer.Call,
      (Writer.empty.run calls).1 = (calls.map fun call => (call, call.expr.write)) ∧
      (Writer.empty.run calls).2.output =
        Text.intercalate "\n" ((Writer.empty.run calls).1.filterMap Writer.Call.kept?) := by
  refine ⟨fun expr suited => ?_, fun calls => ?_⟩
  · have meets := Expr.meets_write suited
    refine ⟨?_, meets.eq_error_iff⟩
    rw [meets.exists_ok_iff, List.findSome?_eq_none_iff]
    simp only [expr.postorder_perm_walk.mem_iff]
  · rw [Writer.run_eq]
    exact ⟨rfl, rfl⟩

/-- A tree in which every node is flawed, the operators behind their operands. -/
def rivalFlaws : Expr :=
  .binary (.unary (.literal .color (.tuple [1, 2]) none default) .plus default) (.bare default) .not
    default

theorem suited_rivalFlaws : rivalFlaws.Suited := by
  intro kind value unit position member
  simp only [rivalFlaws, Expr.walk_eq, Expr.children, List.flatMap_cons, List.flatMap_nil,
    List.append_nil, List.cons_append, List.nil_append, List.mem_cons, List.not_mem_nil, or_false,
    Expr.literal.injEq, reduceCtorEq, false_or] at member
  obtain ⟨rfl, rfl, -⟩ := member
  exact .color [1, 2]

theorem write_meets_first_flaw_rivals :
    rivalFlaws.Suited ∧ rivalFlaws.write = .error (.channelCount 2) ∧
      (Writer.empty.run [.keep (.reference (.text "a") default), .keep rivalFlaws,
        .pass (.reference (.text "b") default), .keep (.reference (.text "c") default)]).2.output =
          "!a\n!c" := by
  obtain ⟨trees, runs⟩ := write_meets_first_flaw
  have first : rivalFlaws.postorder.findSome? Expr.flaw? = some (.channelCount 2) := by
    simp [rivalFlaws, Expr.postorder_eq, Expr.children, Expr.flaw?]
  have failed := ((trees rivalFlaws suited_rivalFlaws).2 _).mpr first
  refine ⟨suited_rivalFlaws, failed, ?_⟩
  obtain ⟨results, output⟩ := runs [.keep (.reference (.text "a") default), .keep rivalFlaws,
    .pass (.reference (.text "b") default), .keep (.reference (.text "c") default)]
  rw [output, results]
  simp only [List.map_cons, List.map_nil, Writer.Call.expr, failed]
  decide +kernel

end StyleExpr
