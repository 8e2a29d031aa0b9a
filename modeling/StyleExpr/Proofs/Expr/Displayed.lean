import StyleExpr.Expr.Display
import StyleExpr.Proofs.Json.Lossless
import StyleExpr.Proofs.Number.Measured
import StyleExpr.Proofs.RoundTrip

/-! The display of a tree that was read tells the tree. Texts are closed by their quotes and nodes by their
parentheses; a number and the unit glued to it end in front of a parenthesis, and are told apart by the
digits at the end of the number. -/

namespace StyleExpr

open Lexeme

/-- A text tells where it ends in front of a character that it does not hold. -/
theorem toList_append_inj {text text' : Text} {close : CodePoint} {rest rest' : List CodePoint}
    (lacks : close ∉ text.toList) (lacks' : close ∉ text'.toList)
    (same : text.toList ++ close :: rest = text'.toList ++ close :: rest') :
    text = text' ∧ rest = rest' := by
  have other {text : List CodePoint} (lacks : close ∉ text) : ∀ c ∈ text, (c != close) = true :=
    fun c member => bne_iff_ne.mpr fun found => lacks (found ▸ member)
  obtain ⟨front, behind⟩ := append_inj_of_run (other lacks) (other lacks') (by simp) (by simp) same
  exact ⟨Text.toList_inj.mp front, (List.cons.inj behind).2⟩

theorem digits_append_inj {number number' : Nat} {close : CodePoint} {rest rest' : List CodePoint}
    (mark : Text.isDigit close = false)
    (same : Text.digits 10 number ++ close :: rest = Text.digits 10 number' ++ close :: rest') :
    number = number' ∧ rest = rest' := by
  obtain ⟨digits, behind⟩ := append_inj_of_run (Text.isDigit_of_plain (plain_digits number))
    (Text.isDigit_of_plain (plain_digits number')) (by simpa using mark) (by simpa using mark) same
  exact ⟨digits_injective digits, (List.cons.inj behind).2⟩

theorem Value.IsColor.append_inj {value value' : Value} {rest rest' : List CodePoint}
    (color : value.IsColor) (color' : value'.IsColor)
    (same : value.display.toList ++ rest = value'.display.toList ++ rest') :
    value = value' ∧ rest = rest' := by
  have shown (red green blue : Nat) (rest : List CodePoint) :
      (Value.tuple [red, green, blue]).display.toList ++ rest =
        scalar '(' :: (Text.digits 10 red ++ scalar ',' :: scalar ' ' :: (Text.digits 10 green ++
          scalar ',' :: scalar ' ' :: (Text.digits 10 blue ++ scalar ')' :: rest))) := by
    have digits (channel : Nat) : (channel : Int).repr.toList.map scalar = Text.digits 10 channel :=
      congrArg Text.toList (ofString_toString channel)
    simp [display, plain, tupleText, digits]
  cases color with
  | @channels red green blue =>
    cases color' with
    | @channels red' green' blue' =>
      rw [shown, shown] at same
      obtain ⟨reds, second⟩ := digits_append_inj (by decide) (List.cons.inj same).2
      obtain ⟨greens, third⟩ := digits_append_inj (by decide) (List.cons.inj second).2
      obtain ⟨blues, ended⟩ := digits_append_inj (by decide) (List.cons.inj third).2
      rw [reds, greens, blues]
      exact ⟨rfl, ended⟩

namespace Expr

def Form.heading : Form → Text
  | binary => "BinaryOp"
  | unary => "UnaryOp"
  | call => "Funcall"
  | reference => "Variable"
  | literal => "Literal"
  | bare => "ASTNode"

def furtherChars (exprs : List Expr) : List CodePoint :=
  exprs.flatMap fun expr => scalar ',' :: scalar ' ' :: expr.display.toList

def argumentChars : List Expr → List CodePoint
  | [] => []
  | first :: others => first.display.toList ++ furtherChars others

/-- What the display of a node shows in parentheses. -/
def innerChars : Expr → List CodePoint
  | binary left right operator _ =>
    (Text.ofString operator.label).toList ++ scalar ',' :: scalar ' ' ::
      (left.display.toList ++ scalar ',' :: scalar ' ' :: right.display.toList)
  | unary operand operator _ =>
    (Text.ofString operator.label).toList ++ scalar ',' :: scalar ' ' :: operand.display.toList
  | call name arguments _ =>
    name.display.toList ++ scalar ',' :: scalar ' ' :: scalar '[' ::
      (argumentChars arguments ++ [scalar ']'])
  | reference name _ => name.display.toList
  | literal kind value unit _ =>
    (Text.ofString kind.label).toList ++ scalar ',' :: scalar ' ' ::
      (value.display.toList ++ (unit.getD "").toList)
  | bare _ => []

variable {first second : Expr} {exprs exprs' : List Expr} {rest rest' : List CodePoint}

theorem displayAll_eq_map (exprs : List Expr) : displayAll exprs = exprs.map display := by
  induction exprs with
  | nil => rfl
  | cons first others ih => rw [displayAll, ih, List.map_cons]

theorem toList_intercalate_displayAll (exprs : List Expr) :
    (Text.intercalate ", " (displayAll exprs)).toList = argumentChars exprs := by
  have separated (first : Expr) (others : List Expr) :
      (Text.intercalate ", " ((first :: others).map display)).toList =
        first.display.toList ++ furtherChars others := by
    induction others generalizing first with
    | nil => simp [furtherChars]
    | cons second others ih =>
      rw [List.map_cons, Text.intercalate_cons_of_ne_nil (by simp), Text.toList_append,
        Text.toList_append, ih]
      simp [furtherChars]
  rw [displayAll_eq_map]
  cases exprs with
  | nil => rfl
  | cons first others => exact separated first others

theorem toList_display (expr : Expr) :
    expr.display.toList = expr.form.heading.toList ++ scalar '(' :: (expr.innerChars ++ [scalar ')']) := by
  cases expr with
  | call name arguments position =>
    simp only [display, Text.toList_append, toList_intercalate_displayAll]
    simp [form, Form.heading, innerChars]
  | binary | unary | reference | literal | bare => simp [display, form, Form.heading, innerChars]

theorem form_of_display (same : first.display.toList ++ rest = second.display.toList ++ rest') :
    first.form = second.form ∧
      first.innerChars ++ scalar ')' :: rest = second.innerChars ++ scalar ')' :: rest' := by
  have lacks (form : Form) : scalar '(' ∉ form.heading.toList := by
    cases form <;> decide
  rw [toList_display, toList_display, List.append_assoc, List.append_assoc] at same
  obtain ⟨headings, behind⟩ := toList_append_inj (lacks _) (lacks _) same
  refine ⟨?_, by simpa using behind⟩
  generalize first.form = form at headings
  generalize second.form = form' at headings
  cases form <;> cases form' <;> simp_all [Form.heading]

/-- The display of a tree tells the tree up to places, and where it ends, among the trees that are
read. -/
def Told (first : Expr) : Prop :=
  ∀ ⦃second : Expr⦄ ⦃rest rest' : List CodePoint⦄, second.WellFormed Value.IsReadable →
    first.display.toList ++ rest = second.display.toList ++ rest' →
    first.unplaced = second.unplaced ∧ rest = rest'

theorem furtherChars_append_inj (told : ∀ expr ∈ exprs, expr.Told)
    (wellFormed : ∀ expr ∈ exprs', expr.WellFormed Value.IsReadable)
    (same : furtherChars exprs ++ scalar ']' :: rest = furtherChars exprs' ++ scalar ']' :: rest') :
    exprs.map unplaced = exprs'.map unplaced ∧ rest = rest' := by
  have opens (expr : Expr) (rest rest' : List CodePoint) :
      scalar ',' :: scalar ' ' :: expr.display.toList ++ rest ≠ scalar ']' :: rest' :=
    fun same => absurd (List.cons.inj same).1 (by decide)
  refine flatMap_append_inj unplaced (fun _ => True) [scalar ']'] opens (fun _ => trivial)
    (fun _ _ => trivial) ?_ same
  intro expr member expr' member' rest rest' _ _ same
  exact told expr member (wellFormed expr' member') (List.cons.inj (List.cons.inj same).2).2

theorem argumentChars_append_inj (told : ∀ expr ∈ exprs, expr.Told)
    (wellFormed : ∀ expr ∈ exprs', expr.WellFormed Value.IsReadable)
    (same : argumentChars exprs ++ scalar ']' :: rest = argumentChars exprs' ++ scalar ']' :: rest') :
    exprs.map unplaced = exprs'.map unplaced ∧ rest = rest' := by
  have opens (expr : Expr) (rest behind : List CodePoint) :
      expr.display.toList ++ rest ≠ scalar ']' :: behind := by
    rw [toList_display]
    cases expr <;> simp [form, Form.heading]
  cases exprs with
  | nil =>
    cases exprs' with
    | nil => exact ⟨rfl, (List.cons.inj same).2⟩
    | cons expr' exprs' =>
      rw [argumentChars, argumentChars, List.append_assoc] at same
      exact (opens _ _ _ same.symm).elim
  | cons expr exprs =>
    cases exprs' with
    | nil =>
      rw [argumentChars, argumentChars, List.append_assoc] at same
      exact (opens _ _ _ same).elim
    | cons expr' exprs' =>
      rw [argumentChars, argumentChars, List.append_assoc, List.append_assoc] at same
      rw [List.forall_mem_cons] at told wellFormed
      obtain ⟨here, behind⟩ := told.1 wellFormed.1 same
      obtain ⟨others, ended⟩ := furtherChars_append_inj told.2 wellFormed.2 behind
      rw [List.map_cons, List.map_cons, here, others]
      exact ⟨rfl, ended⟩

theorem parenthesis_not_mem {value : Value} {unit : Option Text} (readable : value.IsReadable)
    (measured : ∀ text ∈ unit, IsUnit text.toList) :
    scalar ')' ∉ (value.display ++ unit.getD "").toList := by
  rw [Text.toList_append, List.mem_append, not_or]
  constructor
  · intro member
    cases readable with
    | writable writable =>
      obtain ⟨quantity, represents⟩ := writable.exists_represents
      exact absurd (represents.isFigure _ member) (by simp [Decimal.IsFigure])
    | infinite => exact absurd member (by decide)
  · have suffixed := Spelled.measured_suffix measured
    generalize (unit.getD "").toList = suffix at suffixed
    rcases suffixed with rfl | percent | ⟨-, letters⟩
    · decide
    · decide
    · exact fun member => absurd (letters _ member) (by decide)

theorem label_append_inj {operator operator' : Operator}
    (same : (Text.ofString operator.label).toList ++ scalar ',' :: rest =
      (Text.ofString operator'.label).toList ++ scalar ',' :: rest') :
    operator = operator' ∧ rest = rest' := by
  have lacks (operator : Operator) : scalar ',' ∉ (Text.ofString operator.label).toList := by
    cases operator <;> decide
  obtain ⟨labels, behind⟩ := toList_append_inj (lacks _) (lacks _) same
  exact ⟨Operator.label_injective (Text.ofString_inj.mp labels), behind⟩

theorem told_literal {kind : LiteralKind} {value : Value} {unit : Option Text} {position : Position}
    (wellFormed : (literal kind value unit position).WellFormed Value.IsReadable) :
    (literal kind value unit position).Told := by
  have lacks (kind : LiteralKind) : scalar ',' ∉ (Text.ofString kind.label).toList := by
    cases kind <;> decide
  intro second rest rest' wellFormed' same
  obtain ⟨forms, inner⟩ := form_of_display same
  cases second with
  | literal kind' value' unit' position' =>
    simp only [innerChars, List.append_assoc, List.cons_append] at inner
    obtain ⟨labels, behind⟩ := toList_append_inj (lacks _) (lacks _) inner
    have kinds := LiteralKind.label_injective (Text.ofString_inj.mp labels)
    have shown := (List.cons.inj behind).2
    cases wellFormed with
    | string =>
      cases wellFormed' with
      | string =>
        obtain ⟨rfl, ended⟩ := Text.quoted_append_inj shown
        exact ⟨rfl, (List.cons.inj ended).2⟩
      | _ => cases kinds
    | number readable measured =>
      cases wellFormed' with
      | number readable' measured' =>
        rw [← List.append_assoc, ← List.append_assoc, ← Text.toList_append,
          ← Text.toList_append] at shown
        obtain ⟨glued, ended⟩ := toList_append_inj (parenthesis_not_mem readable measured)
          (parenthesis_not_mem readable' measured') shown
        obtain ⟨rfl, rfl⟩ := readable.unit_inj readable' measured measured' glued
        exact ⟨rfl, ended⟩
      | _ => cases kinds
    | color color =>
      cases wellFormed' with
      | color color' =>
        obtain ⟨rfl, ended⟩ := color.append_inj color' shown
        exact ⟨rfl, (List.cons.inj ended).2⟩
      | _ => cases kinds
    | @bool truth =>
      cases wellFormed' with
      | @bool truth' => cases truth <;> cases truth' <;> simp_all [Value.display, Value.plain]
      | _ => cases kinds
  | _ => cases forms

theorem told (wellFormed : first.WellFormed Value.IsReadable) : first.Told := by
  induction wellFormed with
  | binary _ _ _ left_ih right_ih =>
    intro second rest rest' wellFormed' same
    obtain ⟨forms, inner⟩ := form_of_display same
    cases wellFormed' with
    | binary left' right' =>
      simp only [innerChars, List.append_assoc, List.cons_append] at inner
      obtain ⟨operators, behind⟩ := label_append_inj inner
      obtain ⟨lefts, behind'⟩ := left_ih left' (List.cons.inj behind).2
      obtain ⟨rights, ended⟩ := right_ih right' (List.cons.inj (List.cons.inj behind').2).2
      rw [unplaced_binary, unplaced_binary, lefts, rights, operators]
      exact ⟨rfl, (List.cons.inj ended).2⟩
    | _ => cases forms
  | unary _ _ ih =>
    intro second rest rest' wellFormed' same
    obtain ⟨forms, inner⟩ := form_of_display same
    cases wellFormed' with
    | unary inner' =>
      simp only [innerChars, List.append_assoc, List.cons_append] at inner
      obtain ⟨operators, behind⟩ := label_append_inj inner
      obtain ⟨operands, ended⟩ := ih inner' (List.cons.inj behind).2
      rw [unplaced_unary, unplaced_unary, operands, operators]
      exact ⟨rfl, (List.cons.inj ended).2⟩
    | _ => cases forms
  | call _ _ ih =>
    intro second rest rest' wellFormed' same
    obtain ⟨forms, inner⟩ := form_of_display same
    cases wellFormed' with
    | call _ each' =>
      simp only [innerChars, List.append_assoc, List.cons_append, List.nil_append] at inner
      obtain ⟨names, behind⟩ := Text.quoted_append_inj inner
      obtain ⟨arguments, ended⟩ := argumentChars_append_inj ih each'
        (List.cons.inj (List.cons.inj (List.cons.inj behind).2).2).2
      rw [unplaced_call, unplaced_call, arguments, names]
      exact ⟨rfl, (List.cons.inj ended).2⟩
    | _ => cases forms
  | reference =>
    intro second rest rest' wellFormed' same
    obtain ⟨forms, inner⟩ := form_of_display same
    cases wellFormed' with
    | reference =>
      obtain ⟨names, ended⟩ := Text.quoted_append_inj inner
      rw [unplaced_reference, unplaced_reference, names]
      exact ⟨rfl, (List.cons.inj ended).2⟩
    | _ => cases forms
  | string => exact told_literal .string
  | number readable measured => exact told_literal (.number readable measured)
  | color color => exact told_literal (.color color)
  | bool => exact told_literal .bool

/-- Two expressions that are read off texts and displayed alike are the same tree up to places, and equal.
Their numbers are of one form too: an integer and a double never look alike. -/
theorem display_tells_tree {text text' : Text} {start start' : Position}
    (read : (Reading.ofText text start).1.outcome = .ok first)
    (read' : (Reading.ofText text' start').1.outcome = .ok second)
    (same : first.display = second.display) :
    first.same second = true ∧ first.unplaced = second.unplaced := by
  have wellFormed := Reading.wellFormed_of_ofText read
  have wellFormed' := Reading.wellFormed_of_ofText read'
  have written : first.display.toList ++ [] = second.display.toList ++ [] := by rw [same]
  obtain ⟨alike, -⟩ := told wellFormed wellFormed' written
  exact ⟨same_of_unplaced wellFormed' alike, alike⟩

/-- A negative number with a unit that could be taken for an exponent, written without and with a blank. -/
theorem display_tells_tree_respaced :
    let negative (place : Position) : Expr :=
      .unary (.literal .number (.int 1) (some "e") place) .minus ⟨1, 1⟩
    (Reading.ofText "-1e" ⟨1, 1⟩).1.outcome = .ok (negative ⟨1, 2⟩) ∧
      (Reading.ofText "- 1e" ⟨1, 1⟩).1.outcome = .ok (negative ⟨1, 3⟩) ∧
      (negative ⟨1, 2⟩).display = "UnaryOp(minus, Literal(number, 1e))" ∧
      (negative ⟨1, 2⟩).display = (negative ⟨1, 3⟩).display ∧
      (negative ⟨1, 2⟩).same (negative ⟨1, 3⟩) = true ∧
      (negative ⟨1, 2⟩).unplaced = (negative ⟨1, 3⟩).unplaced := by
  intro negative
  have read (text : Text) (place : Position) (lexed : tokenize text ⟨1, 1⟩ =
      .ok [⟨.minus, .text "-", ⟨1, 1⟩, none⟩, ⟨.number, .int 1, place, some "e"⟩]) :
      (Reading.ofText text ⟨1, 1⟩).1.outcome = .ok (negative place) := by
    have number : Phrase .literal false [⟨.number, .int 1, place, some "e"⟩]
        (.literal .number (.int 1) (some "e") place) := .literal rfl
    have signed : Phrase .minus false [⟨.minus, .text "-", ⟨1, 1⟩, none⟩,
        ⟨.number, .int 1, place, some "e"⟩] (negative place) := .sign rfl (number.loosen (by decide))
    obtain ⟨lexer, read, -⟩ := Reading.ofText_phrase (feeds_of_tokenize lexed)
      (signed.loosen (by decide)) (Level.stops_nil _)
    rw [read]
  have first := read "-1e" ⟨1, 2⟩ rfl
  have second := read "- 1e" ⟨1, 3⟩ rfl
  exact ⟨first, second, rfl, rfl, display_tells_tree first second rfl⟩

end Expr

end StyleExpr
