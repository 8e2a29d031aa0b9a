import StyleExpr.Proofs.Expr.Standing

/-! What does not depend on places: the canonical text, and equality of trees. Equality keeps what can
be told of a value by its measure, as that it is infinite. -/

namespace StyleExpr

/-- Every value but an undefined number equals itself. -/
theorem Value.same_self {value : Value} (defined : value ≠ .float .nan) : value.same value = true := by
  unfold same
  cases measure : value.measure? with
  | none => simp
  | some x =>
    have other : x ≠ .undefined := by
      rintro rfl
      cases value with
      | float number =>
        cases number with
        | nan => exact defined rfl
        | finite | infinite => cases measure
      | int | bool => cases measure
      | text | tuple | nothing => cases measure
    simp [other]

theorem Value.infinite_of_measure? {value : Value} {negative : Bool}
    (found : value.measure? = some (.infinite negative)) : value = .float (.infinite negative) := by
  cases value with
  | float number =>
    cases number with
    | infinite =>
      cases found
      rfl
    | finite | nan => cases found
  | int | bool => cases found
  | text | tuple | nothing => cases found

theorem Value.infinite_of_same {value : Value} {negative : Bool}
    (same : value.same (.float (.infinite negative)) = true) : value = .float (.infinite negative) := by
  have infinite : (Value.float (.infinite negative)).measure? = some (.infinite negative) := rfl
  rw [Value.same, infinite] at same
  cases found : value.measure? with
  | none =>
    rw [found] at same
    cases same
  | some measure =>
    rw [found] at same
    simp only [Bool.and_eq_true, beq_iff_eq] at same
    rw [same.1] at found
    exact infinite_of_measure? found

theorem Value.IsReadable.defined {value : Value} (readable : value.IsReadable) :
    value ≠ .float .nan := by
  rintro rfl
  cases readable with
  | writable writable => cases writable

namespace Expr

variable {first second : Expr}

theorem writeAll_congr {exprs : List Expr} (place : Position → Position)
    (each : ∀ expr ∈ exprs, (expr.moved place).write = expr.write) :
    writeAll (exprs.map (moved place)) = writeAll exprs := by
  induction exprs with
  | nil => rfl
  | cons expr exprs ih =>
    rw [List.forall_mem_cons] at each
    rw [List.map_cons, writeAll, writeAll, each.1, ih each.2]

theorem write_moved (place : Position → Position) (expr : Expr) :
    (expr.moved place).write = expr.write := by
  induction expr using tree_induction with
  | binary left right operator position left_ih right_ih =>
    rw [moved, write, write, left_ih, right_ih]
  | unary operand operator position ih => rw [moved, write, write, ih]
  | call name arguments position ih =>
    rw [moved, write, write, movedAll_eq_map, writeAll_congr place ih]
  | reference | literal | bare => rfl

theorem write_eq_of_unplaced (alike : first.unplaced = second.unplaced) :
    first.write = second.write := by
  rw [← write_moved (fun _ => default) first, ← write_moved (fun _ => default) second]
  exact congrArg write alike

theorem sameAll_of_unplaced {exprs exprs' : List Expr}
    (each : ∀ expr ∈ exprs', ∀ other : Expr,
      other.unplaced = expr.unplaced → other.same expr = true)
    (alike : exprs.map unplaced = exprs'.map unplaced) : sameAll exprs exprs' = true := by
  induction exprs' generalizing exprs with
  | nil =>
    obtain rfl := List.map_eq_nil_iff.mp alike
    rfl
  | cons expr' exprs' ih =>
    obtain ⟨expr, others, rfl, alike', alikes⟩ := List.map_eq_cons_iff.mp alike
    rw [List.forall_mem_cons] at each
    rw [sameAll, each.1 expr alike', ih each.2 alikes]
    rfl

theorem same_literal_of_unplaced {kind : LiteralKind} {value : Value} {unit : Option Text}
    {position : Position} (defined : value ≠ .float .nan)
    (alike : first.unplaced = (literal kind value unit position).unplaced) :
    first.same (literal kind value unit position) = true := by
  cases first with
  | literal =>
    simp only [unplaced_literal, literal.injEq] at alike
    simp [same, alike.1, alike.2.1, alike.2.2.1, Value.same_self defined]
  | binary | unary | call | reference | bare => cases alike

/-- A readable tree equals every tree that differs from it by places only. -/
theorem same_of_unplaced (wellFormed : second.WellFormed Value.IsReadable)
    (alike : first.unplaced = second.unplaced) : first.same second = true := by
  induction wellFormed generalizing first with
  | binary _ _ _ left right =>
    cases first with
    | binary =>
      simp only [unplaced_binary, binary.injEq] at alike
      simp [same, left alike.1, right alike.2.1, alike.2.2.1]
    | unary | call | reference | literal | bare => cases alike
  | unary _ _ inner =>
    cases first with
    | unary =>
      simp only [unplaced_unary, unary.injEq] at alike
      simp [same, inner alike.1, alike.2.1]
    | binary | call | reference | literal | bare => cases alike
  | call _ _ each =>
    cases first with
    | call =>
      simp only [unplaced_call, call.injEq] at alike
      have arguments := sameAll_of_unplaced (fun expr member other => each expr member) alike.2.1
      simp [same, alike.1, arguments, Value.same_self]
    | binary | unary | reference | literal | bare => cases alike
  | reference =>
    cases first with
    | reference =>
      simp only [unplaced_reference, reference.injEq] at alike
      simp [same, alike.1, Value.same_self]
    | binary | unary | call | literal | bare => cases alike
  | string => exact same_literal_of_unplaced nofun alike
  | number number => exact same_literal_of_unplaced number.defined alike
  | color color =>
    cases color with
    | channels => exact same_literal_of_unplaced nofun alike
  | bool => exact same_literal_of_unplaced nofun alike

theorem exists_same_of_sameAll {exprs exprs' : List Expr} (same : sameAll exprs exprs' = true) :
    ∀ expr' ∈ exprs', ∃ expr ∈ exprs, expr.same expr' = true := by
  induction exprs generalizing exprs' with
  | nil =>
    cases exprs' with
    | nil => simp
    | cons => cases same
  | cons expr exprs ih =>
    cases exprs' with
    | nil => simp
    | cons expr' exprs' =>
      rw [sameAll, Bool.and_eq_true] at same
      intro other member
      rcases List.mem_cons.mp member with rfl | later
      · exact ⟨expr, List.mem_cons_self .., same.1⟩
      · obtain ⟨found, member, alike⟩ := ih same.2 other later
        exact ⟨found, List.mem_cons_of_mem _ member, alike⟩

theorem exists_same_child (same : first.same second = true) :
    ∀ child ∈ second.children, ∃ child' ∈ first.children, child'.same child = true := by
  cases second with
  | binary =>
    cases first with
    | binary =>
      simp only [Expr.same, Bool.and_eq_true] at same
      simp [children, same.1]
    | unary | call | reference | literal | bare => cases same
  | unary =>
    cases first with
    | unary =>
      simp only [Expr.same, Bool.and_eq_true] at same
      simp [children, same.1]
    | binary | call | reference | literal | bare => cases same
  | call =>
    cases first with
    | call =>
      simp only [Expr.same, Bool.and_eq_true] at same
      exact exists_same_of_sameAll same.2
    | binary | unary | reference | literal | bare => cases same
  | reference | literal | bare => simp [children]

theorem HasInfinity.of_same (infinite : second.HasInfinity) (same : first.same second = true) :
    first.HasInfinity := by
  induction infinite generalizing first with
  | literal =>
    cases first with
    | literal =>
      simp only [Expr.same, Bool.and_eq_true] at same
      rw [Value.infinite_of_same same.1.2]
      exact .literal _ _ _ _
    | binary | unary | call | reference | bare => cases same
  | child member _ ih =>
    obtain ⟨child, member', alike⟩ := exists_same_child same _ member
    exact .child member' (ih alike)

end Expr

end StyleExpr
