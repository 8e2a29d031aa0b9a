import StyleExpr.Expr.Basic
import StyleExpr.Json.Basic
import StyleExpr.Place

/-! Trees as nested records of plain data, places included. -/

namespace StyleExpr

/-- What a record says about its node beside its form, place and children. -/
inductive Record.Detail where
  | none
  | operator (operator : Operator)
  | name (name : Value)
  | literal (kind : LiteralKind) (value : Value) (unit : Option Text)

inductive Record where
  | mk (form : Expr.Form) (position : Position) (children : List Record) (detail : Record.Detail)

/-- References and literals have no list of children, not even an empty one. -/
def Expr.Form.listsChildren : Expr.Form → Bool
  | reference | literal => false
  | binary | unary | call | bare => true

namespace Expr

mutual

def record : Expr → Record
  | .binary left right operator position =>
    .mk .binary position [left.record, right.record] (.operator operator)
  | .unary operand operator position =>
    .mk .unary position [operand.record] (.operator operator)
  | .call name arguments position => .mk .call position (recordAll arguments) (.name name)
  | .reference name position => .mk .reference position [] (.name name)
  | .literal kind value unit position => .mk .literal position [] (.literal kind value unit)
  | .bare position => .mk .bare position [] .none

def recordAll : List Expr → List Record
  | [] => []
  | first :: rest => first.record :: recordAll rest

end

theorem recordAll_eq_map (exprs : List Expr) : recordAll exprs = exprs.map record := by
  induction exprs with
  | nil => rfl
  | cons first rest ih => rw [recordAll, ih, List.map_cons]

end Expr

def Value.json : Value → JsonValue
  | text content => .text content
  | int number => .int number
  | float number => .double number
  | bool truth => .bool truth
  | tuple items => .array (items.map .int)
  | nothing => .null

def Coordinate.json : Coordinate → JsonValue
  | number value => .int value
  | blank => .array []

namespace Record

def Detail.fields : Detail → List (Text × JsonValue)
  | .none => []
  | .operator sign => [("operator", .text sign.label)]
  | .name given => [("name", given.json)]
  | .literal kind value unit =>
    [("type", .text kind.label), ("value", value.json),
      ("unit", (unit.map JsonValue.text).getD .null)]

/-- The field for the children, of a form that lists them. -/
def childFields (form : Expr.Form) (children : List JsonValue) : List (Text × JsonValue) :=
  if form.listsChildren then [("children", .array children)] else []

mutual

/-- The fields of a record: form, place as it is shown, children if it lists them, and what else it
says. -/
def json (shown : Position → Place) : Record → JsonValue
  | .mk form position children detail =>
    .object (("kind", .text form.label) :: ("line", (shown position).line.json) ::
      ("col", (shown position).column.json) ::
      (childFields form (jsonAll shown children) ++ detail.fields))

def jsonAll (shown : Position → Place) : List Record → List JsonValue
  | [] => []
  | first :: rest => first.json shown :: jsonAll shown rest

end

theorem jsonAll_eq_map (shown : Position → Place) (records : List Record) :
    jsonAll shown records = records.map (json shown) := by
  induction records with
  | nil => rfl
  | cons first rest ih => rw [jsonAll, ih, List.map_cons]

end Record

end StyleExpr
