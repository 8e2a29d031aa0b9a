import Mathlib.Data.List.Basic
import Mathlib.Data.List.Forall2
import Mathlib.Tactic.NormNum
import StyleExpr.Proofs.Expr.Traversal
import StyleExpr.Proofs.Number.Exact

/-! Equality of trees is equality of what they say. Of each node that is its form, its operator, kind and
unit, and what its value denotes, but not its place; so equality is an equivalence, does not see places
and is kept when equal trees take each other's place. -/

namespace StyleExpr

/-- What a value is compared by: the rational number that it denotes, or else the value itself. -/
def Value.denoted (value : Value) : ℚ ⊕ Value :=
  match value.rational? with
  | some x => .inl x
  | none => .inr value

theorem Value.same_iff_denoted {value other : Value} (defined : value ≠ .float .nan) :
    value.same other = true ↔ value.denoted = other.denoted := by
  unfold denoted
  cases found : value.rational? with
  | some x =>
    rw [same_iff_rational? found]
    cases other.rational? with
    | none => simp
    | some x' => simp [eq_comm]
  | none =>
    rw [same_iff_eq found defined]
    cases found' : other.rational? with
    | none => simp
    | some x' =>
      simp only [reduceCtorEq, iff_false]
      rintro rfl
      rw [found] at found'
      cases found'

namespace Expr

/-- What a node says, its place and the nodes below it apart. -/
inductive Said where
  | binary (operator : Operator)
  | unary (operator : Operator)
  | call (name : ℚ ⊕ Value)
  | reference (name : ℚ ⊕ Value)
  | literal (kind : LiteralKind) (value : ℚ ⊕ Value) (unit : Option Text)
  | bare

def said : Expr → Said
  | binary _ _ operator _ => .binary operator
  | unary _ operator _ => .unary operator
  | call name _ _ => .call name.denoted
  | reference name _ => .reference name.denoted
  | literal kind value unit _ => .literal kind value.denoted unit
  | bare _ => .bare

def ownValues : Expr → List Value
  | call name _ _ | reference name _ => [name]
  | literal _ value _ _ => [value]
  | binary .. | unary .. | bare _ => []

def Defined (expr : Expr) : Prop :=
  ∀ node ∈ expr.walk, ∀ value ∈ node.ownValues, value ≠ .float .nan

inductive Essence where
  | node (said : Said) (below : List Essence)

def essence (expr : Expr) : Essence :=
  .node expr.said (expr.children.attach.map fun child => essence child.val)
termination_by sizeOf expr
decreasing_by exact sizeOf_lt_of_mem_children child.property

variable {expr first second new : Expr} {place : Position → Position}

theorem essence_eq (expr : Expr) : expr.essence = .node expr.said (expr.children.map essence) := by
  rw [essence, List.attach_map_val]

theorem defined_iff : expr.Defined ↔
    (∀ value ∈ expr.ownValues, value ≠ .float .nan) ∧ ∀ child ∈ expr.children, child.Defined := by
  simp only [Defined, walk_eq expr, List.forall_mem_cons, List.mem_flatMap]
  grind

/-- Two nodes are the same if they say the same and the nodes below them are the same in turn. -/
theorem same_iff_said (defined : ∀ value ∈ first.ownValues, value ≠ .float .nan) :
    first.same second = true ↔
      first.said = second.said ∧ sameAll first.children second.children = true := by
  cases first with
  | binary =>
    cases second <;> simp [same, said, children, sameAll, and_comm]
  | unary =>
    cases second <;> simp [same, said, children, sameAll, and_comm]
  | call =>
    cases second <;> simp_all [same, said, children, ownValues, Value.same_iff_denoted]
  | reference =>
    cases second <;> simp_all [same, said, children, ownValues, Value.same_iff_denoted, sameAll]
  | literal =>
    cases second <;> simp_all [same, said, children, ownValues, Value.same_iff_denoted, sameAll, and_assoc]
  | bare => cases second <;> simp [same, said, children, sameAll]

theorem sameAll_iff_forall₂ {exprs exprs' : List Expr} :
    sameAll exprs exprs' = true ↔ List.Forall₂ (fun expr other => expr.same other = true) exprs exprs' := by
  induction exprs generalizing exprs' with
  | nil => cases exprs' <;> simp [sameAll, List.forall₂_nil_left_iff]
  | cons expr exprs ih => cases exprs' <;> simp [sameAll, ih, List.forall₂_nil_right_iff]

theorem sameAll_iff {exprs exprs' : List Expr}
    (each : ∀ expr ∈ exprs, ∀ other, expr.same other = true ↔ expr.essence = other.essence) :
    sameAll exprs exprs' = true ↔ exprs.map essence = exprs'.map essence := by
  induction exprs generalizing exprs' with
  | nil => cases exprs' <;> simp [sameAll]
  | cons expr exprs ih =>
    obtain ⟨here, others⟩ := List.forall_mem_cons.mp each
    cases exprs' with
    | nil => simp [sameAll]
    | cons other exprs' => simp [sameAll, here, ih others]

theorem same_iff_essence (defined : first.Defined) :
    first.same second = true ↔ first.essence = second.essence := by
  induction first using children_induction generalizing second with
  | node first ih =>
    obtain ⟨own, below⟩ := defined_iff.mp defined
    have each : ∀ child ∈ first.children, ∀ other,
        child.same other = true ↔ child.essence = other.essence :=
      fun child member _ => ih child member (below child member)
    rw [same_iff_said own, sameAll_iff each, essence_eq, essence_eq second, Essence.node.injEq]

theorem said_moved (place : Position → Position) (expr : Expr) : (expr.moved place).said = expr.said := by
  cases expr <;> rfl

theorem children_moved (place : Position → Position) (expr : Expr) :
    (expr.moved place).children = expr.children.map (moved place) := by
  cases expr with
  | call name arguments position => rw [moved, children, movedAll_eq_map]; rfl
  | binary | unary | reference | literal | bare => rfl

theorem essence_moved (place : Position → Position) (expr : Expr) :
    (expr.moved place).essence = expr.essence := by
  induction expr using children_induction with
  | node expr ih =>
    rw [essence_eq, essence_eq expr, said_moved, children_moved, List.map_map]
    exact congrArg _ (List.map_congr_left ih)

theorem essence_eq_of_unplaced (alike : first.unplaced = second.unplaced) :
    first.essence = second.essence := by
  rw [← essence_moved (fun _ => default) first, ← essence_moved (fun _ => default) second]
  exact congrArg essence alike

/-- The node with other nodes below it, as many as before. -/
def withChildren : Expr → List Expr → Expr
  | binary _ _ operator position, [left, right] => binary left right operator position
  | unary _ operator position, [operand] => unary operand operator position
  | call name _ position, arguments => call name arguments position
  | node, _ => node

theorem withChildren_spec {exprs : List Expr} (many : exprs.length = expr.children.length) :
    (expr.withChildren exprs).said = expr.said ∧ (expr.withChildren exprs).children = exprs := by
  cases expr with
  | binary left right operator position =>
    obtain ⟨left', right', rfl⟩ := List.length_eq_two.mp many
    exact ⟨rfl, rfl⟩
  | unary operand operator position =>
    obtain ⟨operand', rfl⟩ := List.length_eq_one_iff.mp many
    exact ⟨rfl, rfl⟩
  | call name arguments position => exact ⟨rfl, rfl⟩
  | reference | literal | bare =>
    obtain rfl := List.length_eq_zero_iff.mp many
    exact ⟨rfl, rfl⟩

/-- The tree with another one in the place of the node at an address. -/
def replaceAt (new : Expr) : List Nat → Expr → Expr
  | [], _ => new
  | index :: address, expr => expr.withChildren (expr.children.modify index (replaceAt new address))

theorem replaceAt_cons (new : Expr) (index : Nat) (address : List Nat) (expr : Expr) :
    (replaceAt new (index :: address) expr).said = expr.said ∧
      (replaceAt new (index :: address) expr).children =
        expr.children.modify index (replaceAt new address) :=
  withChildren_spec (List.length_modify ..)

theorem at?_replaceAt {address : List Nat} {part : Expr} (found : at? address expr = some part) :
    at? address (replaceAt new address expr) = some new := by
  induction address generalizing expr with
  | nil => rfl
  | cons index address ih =>
    obtain ⟨child, here, below⟩ := Option.bind_eq_some_iff.mp found
    rw [at?, (replaceAt_cons new index address expr).2, List.getElem?_modify, here]
    simpa using ih below

/-- A part that says the same can take the place of a part. -/
theorem essence_replaceAt {address : List Nat} {part : Expr} (found : at? address expr = some part)
    (alike : part.essence = new.essence) : (replaceAt new address expr).essence = expr.essence := by
  induction address generalizing expr with
  | nil =>
    cases found
    exact alike.symm
  | cons index address ih =>
    obtain ⟨child, here, below⟩ := Option.bind_eq_some_iff.mp found
    obtain ⟨said, children⟩ := replaceAt_cons new index address expr
    rw [essence_eq, essence_eq expr, said, children]
    congr 1
    apply List.ext_getElem?
    intro place
    rw [List.getElem?_map, List.getElem?_map, List.getElem?_modify]
    by_cases same : index = place
    · subst same
      simp [here, ih below]
    · simp [same]

theorem form_of_same (same : first.same second = true) : first.form = second.form := by
  cases first <;> cases second <;> first | rfl | cases same

theorem Defined.child (defined : expr.Defined) : ∀ child ∈ expr.children, child.Defined :=
  (defined_iff.mp defined).2

theorem Defined.at? {address : List Nat} {part : Expr} (defined : expr.Defined)
    (found : Expr.at? address expr = some part) : part.Defined := by
  induction address generalizing expr with
  | nil =>
    cases found
    exact defined
  | cons index address ih =>
    obtain ⟨child, here, below⟩ := Option.bind_eq_some_iff.mp found
    exact ih (defined.child child (List.mem_of_getElem? here)) below

abbrev Comparable :=
  { expr : Expr // expr.Defined }

theorem same_iff_of_comparable (first second : Comparable) :
    first.val.same second.val = true ↔ first.val.essence = second.val.essence :=
  same_iff_essence first.property

/-- Among trees without undefined numbers, whatever values they hold, equality is an equivalence. It does
not change when places do, anywhere in the trees, and putting an equal tree in the place of a part gives
an equal tree. Two nodes are equal exactly if they agree in form, operator, name, kind, value and unit, as
far as they have these, and the nodes below them are equal one by one; so trees of different forms are never
equal. Of the values in them, those that denote a rational number are equal exactly if they denote the same
one, be they integers, truth values or doubles, and all others equal themselves alone. -/
theorem same_equivalence :
    Equivalence (fun first second : Comparable => first.val.same second.val = true) ∧
      (∀ first first' second second' : Comparable, first.val.unplaced = first'.val.unplaced →
        second.val.unplaced = second'.val.unplaced →
        first.val.same second.val = first'.val.same second'.val) ∧
      (∀ (expr : Comparable) (address : List Nat) (part new : Expr),
        at? address expr.val = some part → part.same new = true →
        at? address (replaceAt new address expr.val) = some new ∧
          expr.val.same (replaceAt new address expr.val) = true) ∧
      (∀ first second : Comparable, first.val.same second.val = true ↔
        first.val.said = second.val.said ∧
          List.Forall₂ (fun child child' => child.same child' = true) first.val.children
            second.val.children) ∧
      (∀ first second : Expr, first.form ≠ second.form → first.same second = false) ∧
      (∀ (value other : Value) (x : ℚ), value.rational? = some x →
        (value.same other = true ↔ other.rational? = some x)) ∧
      ∀ value other : Value, value.rational? = none → value ≠ .float .nan →
        (value.same other = true ↔ value = other) := by
  refine ⟨⟨?_, ?_, ?_⟩, ?_, ?_, ?_, ?_, ?_, ?_⟩
  · intro expr
    exact (same_iff_of_comparable expr expr).mpr rfl
  · intro first second same
    exact (same_iff_of_comparable second first).mpr ((same_iff_of_comparable first second).mp same).symm
  · intro first second third same same'
    apply (same_iff_of_comparable first third).mpr
    exact ((same_iff_of_comparable first second).mp same).trans
      ((same_iff_of_comparable second third).mp same')
  · intro first first' second second' alike alike'
    rw [Bool.eq_iff_iff, same_iff_of_comparable, same_iff_of_comparable, essence_eq_of_unplaced alike,
      essence_eq_of_unplaced alike']
  · intro expr address part new found same
    have alike := (same_iff_essence (expr.property.at? found)).mp same
    exact ⟨at?_replaceAt found, (same_iff_essence expr.property).mpr (essence_replaceAt found alike).symm⟩
  · intro first second
    rw [same_iff_said (defined_iff.mp first.property).1, sameAll_iff_forall₂]
  · intro first second other
    exact Bool.eq_false_iff.mpr fun same => other (form_of_same same)
  · exact fun value other x found => Value.same_iff_rational? found
  · exact fun value other missing defined => Value.same_iff_eq missing defined

/-- Two to the power of 53, from where on doubles are sparser than integers. -/
def sparse : Value :=
  .float (.finite false ⟨(1023 + 53) * 2 ^ 52, by decide⟩)

/-- A call with an integer for its argument equals one with the same number as a double, but not one with
a unit behind the integer. The next integer is another number, though no double lies between the two. -/
theorem same_equivalence_sparse :
    let call (argument : Expr) : Expr := .call (.text "f") [argument] ⟨1, 1⟩
    let integer : Expr := .literal .number (.int 9007199254740992) none ⟨1, 3⟩
    let double : Expr := .literal .number sparse none ⟨2, 7⟩
    let measured : Expr := .literal .number (.int 9007199254740992) (some "px") ⟨1, 3⟩
    (call integer).Defined ∧ integer.same double = true ∧ (call integer).same (call double) = true ∧
      measured.Defined ∧ (call integer).same (call measured) = false ∧
      (Value.int 9007199254740993).same sparse = false := by
  intro call integer double measured
  have denoted : sparse.rational? = some 9007199254740992 := by
    simp only [sparse, Value.rational?, Double.rational?, Double.exact]
    norm_num
  obtain ⟨-, -, replaced, parts, -, numbers, -⟩ := same_equivalence
  have leaf (unit : Option Text) : (literal .number (.int 9007199254740992) unit ⟨1, 3⟩).Defined := by
    rw [defined_iff]
    simp [ownValues, children]
  have defined (unit : Option Text) :
      (call (literal .number (.int 9007199254740992) unit ⟨1, 3⟩)).Defined := by
    rw [defined_iff]
    simp [call, ownValues, children, leaf unit]
  have equal : (Value.int 9007199254740992).same sparse = true := (numbers _ _ _ rfl).mpr denoted
  have part : integer.same double = true := by simp [same, integer, double, equal]
  have replaced' := (replaced ⟨_, defined none⟩ [0] integer double rfl part).2
  refine ⟨defined none, part, replaced', leaf _, ?_, ?_⟩
  · rw [Bool.eq_false_iff]
    intro alike
    have below := ((parts ⟨_, defined none⟩ ⟨_, defined (some "px")⟩).mp alike).2
    have units := ((parts ⟨_, leaf none⟩ ⟨_, leaf (some "px")⟩).mp (List.forall₂_cons.mp below).1).1
    cases units
  · rw [Bool.eq_false_iff]
    intro next
    have other := (numbers _ _ _ rfl).mp next
    rw [denoted] at other
    norm_num at other

end Expr

end StyleExpr
