import StyleExpr.Expr.Record
import StyleExpr.Proofs.Expr.Units
import StyleExpr.Proofs.Json.Layout
import StyleExpr.Proofs.RoundTrip
import StyleExpr.Proofs.Source.Transcript

/-! The JSON text of a tree tells the tree in units, with the place of each node. Its layout tells the
nested record, and the fields of a record tell the node and its children. JSON cannot tell a character
above `0xFFFF` from its two surrogates, so a tree that holds these in a string literal is not told. -/

namespace StyleExpr

theorem eq_of_read_back {α β : Type} {image : α → β} {read : β → Option α}
    (reads : ∀ item, read (image item) = some item) {item item' : α}
    (same : image item = image item') : item = item' := by
  have back := reads item
  rw [same, reads item'] at back
  exact (Option.some.inj back).symm

theorem Operator.label_injective {operator operator' : Operator}
    (same : operator.label = operator'.label) : operator = operator' := by
  have reads (operator : Operator) : ofLabel? operator.label = some operator := by
    cases operator <;> rfl
  exact eq_of_read_back reads same

theorem Operator.label_inUnits (operator : Operator) :
    Text.inUnits operator.label = operator.label := by
  cases operator <;> rfl

theorem LiteralKind.label_injective {kind kind' : LiteralKind} (same : kind.label = kind'.label) :
    kind = kind' := by
  have reads (kind : LiteralKind) : ofLabel? kind.label = some kind := by
    cases kind <;> rfl
  exact eq_of_read_back reads same

theorem Expr.Form.label_injective {form form' : Form} (same : form.label = form'.label) :
    form = form' := by
  cases form <;> cases form' <;> simp_all [label]

theorem Value.json_injective {value value' : Value} (same : value.json = value'.json) :
    value = value' := by
  cases value with
  | tuple items =>
    cases value' with
    | tuple items' =>
      have integers : items.map JsonValue.int = items'.map .int := JsonValue.array.inj same
      rw [(List.map_inj_right fun _ _ => JsonValue.int.inj).mp integers]
    | _ => cases same
  | text | int | float | bool | nothing => cases value' <;> simp_all [Value.json]

theorem Value.json_inUnits (value : Value) : value.inUnits.json = value.json.inUnits := by
  cases value with
  | tuple items => simp [inUnits, json, JsonValue.inUnits, Function.comp_def]
  | text | int | float | bool | nothing => rfl

theorem unit_injective {unit unit' : Option Text}
    (same : (unit.map JsonValue.text).getD .null = (unit'.map JsonValue.text).getD .null) :
    unit = unit' := by
  cases unit <;> cases unit' <;> cases same <;> rfl

namespace Expr

def json (expr : Expr) : JsonValue :=
  expr.record.json Position.place

def ownFields : Expr → List (Text × JsonValue)
  | binary left right operator _ =>
    [("children", .array [left.json, right.json]), ("operator", .text operator.label)]
  | unary operand operator _ => [("children", .array [operand.json]), ("operator", .text operator.label)]
  | call name arguments _ => [("children", .array (arguments.map json)), ("name", name.json)]
  | reference name _ => [("name", name.json)]
  | literal kind value unit _ =>
    [("type", .text kind.label), ("value", value.json), ("unit", (unit.map JsonValue.text).getD .null)]
  | bare _ => [("children", .array [])]

theorem json_eq (expr : Expr) :
    expr.json = .object (("kind", .text expr.form.label) :: ("line", .int expr.position.line) ::
      ("col", .int expr.position.column) :: expr.ownFields) := by
  have all (exprs : List Expr) :
      Record.jsonAll Position.place (recordAll exprs) = exprs.map json := by
    rw [recordAll_eq_map, Record.jsonAll_eq_map, List.map_map]
    rfl
  cases expr with
  | call name arguments position =>
    show JsonValue.object (_ :: _ :: _ :: ("children", .array (Record.jsonAll _ _)) :: _) = _
    rw [all]
    rfl
  | binary | unary | reference | literal | bare => rfl

variable {first second : Expr}

theorem parts_of_json (same : first.json = second.json) :
    first.form = second.form ∧ first.position = second.position ∧
      first.ownFields = second.ownFields := by
  simp only [json_eq, JsonValue.object.injEq, List.cons.injEq, Prod.mk.injEq, JsonValue.text.injEq,
    JsonValue.int.injEq, true_and] at same
  obtain ⟨label, line, column, fields⟩ := same
  refine ⟨Form.label_injective label, ?_, fields⟩
  generalize first.position = place at line column ⊢
  generalize second.position = place' at line column ⊢
  cases place
  cases place'
  simp_all

theorem json_injective (same : first.json = second.json) : first = second := by
  induction first using tree_induction generalizing second with
  | binary left right operator position left_ih right_ih =>
    obtain ⟨form, place, fields⟩ := parts_of_json same
    cases second with
    | binary left' right' operator' position' =>
      simp only [ownFields, List.cons.injEq, Prod.mk.injEq, JsonValue.array.injEq,
        JsonValue.text.injEq, true_and, and_true] at fields
      obtain ⟨⟨leftSame, rightSame⟩, label⟩ := fields
      rw [left_ih leftSame, right_ih rightSame, Operator.label_injective (Text.ofString_inj.mp label)]
      exact congrArg _ place
    | _ => cases form
  | unary operand operator position ih =>
    obtain ⟨form, place, fields⟩ := parts_of_json same
    cases second with
    | unary operand' operator' position' =>
      simp only [ownFields, List.cons.injEq, Prod.mk.injEq, JsonValue.array.injEq,
        JsonValue.text.injEq, true_and, and_true] at fields
      obtain ⟨operandSame, label⟩ := fields
      rw [ih operandSame, Operator.label_injective (Text.ofString_inj.mp label)]
      exact congrArg _ place
    | _ => cases form
  | call name arguments position ih =>
    obtain ⟨form, place, fields⟩ := parts_of_json same
    cases second with
    | call name' arguments' position' =>
      simp only [ownFields, List.cons.injEq, Prod.mk.injEq, JsonValue.array.injEq, true_and,
        and_true] at fields
      obtain ⟨argumentsSame, nameSame⟩ := fields
      rw [map_inj_of_mem (fun argument member _ _ => ih argument member) argumentsSame,
        Value.json_injective nameSame]
      exact congrArg _ place
    | _ => cases form
  | reference name position =>
    obtain ⟨form, place, fields⟩ := parts_of_json same
    cases second with
    | reference name' position' =>
      simp only [ownFields, List.cons.injEq, Prod.mk.injEq, true_and, and_true] at fields
      rw [Value.json_injective fields]
      exact congrArg _ place
    | _ => cases form
  | literal kind value unit position =>
    obtain ⟨form, place, fields⟩ := parts_of_json same
    cases second with
    | literal kind' value' unit' position' =>
      simp only [ownFields, List.cons.injEq, Prod.mk.injEq, JsonValue.text.injEq, true_and,
        and_true] at fields
      obtain ⟨label, valueSame, unitSame⟩ := fields
      rw [LiteralKind.label_injective (Text.ofString_inj.mp label), Value.json_injective valueSame,
        unit_injective unitSame]
      exact congrArg _ place
    | _ => cases form
  | bare position =>
    obtain ⟨form, place, fields⟩ := parts_of_json same
    cases second with
    | bare position' => exact congrArg _ place
    | _ => cases form

theorem ownFields_inUnits (expr : Expr)
    (below : ∀ child ∈ expr.children, child.inUnits.json = child.json.inUnits) :
    expr.inUnits.ownFields = JsonValue.inUnitsFields expr.ownFields := by
  cases expr with
  | binary left right operator position =>
    simp [inUnits, ownFields, JsonValue.inUnits, below left (by simp [children]),
      below right (by simp [children]), operator.label_inUnits, Text.inUnits_short]
  | unary operand operator position =>
    simp [inUnits, ownFields, JsonValue.inUnits, below operand (by simp [children]),
      operator.label_inUnits, Text.inUnits_short]
  | call name arguments position =>
    have each : ∀ argument ∈ arguments, argument.inUnits.json = argument.json.inUnits := below
    simpa [inUnits, ownFields, JsonValue.inUnits, Value.json_inUnits, Text.inUnits_short] using each
  | reference name position => simp [inUnits, ownFields, Value.json_inUnits, Text.inUnits_short]
  | literal kind value unit position =>
    have label : Text.inUnits kind.label = kind.label := by cases kind <;> rfl
    cases unit <;>
      simp [inUnits, ownFields, JsonValue.inUnits, Value.json_inUnits, label, Text.inUnits_short]
  | bare position => simp [inUnits, ownFields, JsonValue.inUnits, Text.inUnits_short]

theorem json_inUnits (expr : Expr) : expr.inUnits.json = expr.json.inUnits := by
  induction expr using children_induction with
  | node expr below =>
    have form : expr.inUnits.form = expr.form := by cases expr <;> rfl
    have position : expr.inUnits.position = expr.position := by cases expr <;> rfl
    have label : Text.inUnits expr.form.label = expr.form.label := by cases expr <;> rfl
    rw [json_eq, json_eq, ownFields_inUnits expr below, form, position]
    simp only [JsonValue.inUnits, JsonValue.inUnitsFields, label]
    rfl

/-- JSON texts of trees are the same exactly if the trees are the same in units. -/
theorem layout_record_iff :
    (first.record.json Position.place).layout = (second.record.json Position.place).layout ↔
      first.inUnits = second.inUnits := by
  rw [JsonValue.layout_eq_iff]
  show first.json.inUnits = second.json.inUnits ↔ _
  rw [← json_inUnits, ← json_inUnits]
  exact ⟨json_injective, congrArg json⟩

theorem read_literal {text : Text} {start : Position} {kind : LiteralKind} (token : Token)
    (lexed : tokenize text start = .ok [token]) (found : LiteralKind.ofToken? token.kind = some kind) :
    (Reading.ofText text start).1.outcome =
      .ok (.literal kind token.value token.unit token.position) := by
  have phrase : Phrase .literal false [token] (.literal kind token.value token.unit token.position) :=
    .literal found
  obtain ⟨lexer, read, -⟩ :=
    Reading.ofText_phrase (feeds_of_tokenize lexed) (phrase.loosen (by decide)) (Level.stops_nil _)
  rw [read]

end Expr

end StyleExpr
