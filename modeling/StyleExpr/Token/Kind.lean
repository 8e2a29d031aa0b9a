/-! The kinds of tokens, of operators and of literals. -/

namespace StyleExpr

inductive TokenKind where
  | identifier | reference | openParen | closeParen | comma
  | string | number | color | bool
  | or | and | not
  | equal | notEqual | greater | greaterEqual | less | lessEqual
  | plus | minus | times | divide | modulo
  deriving DecidableEq

/-- The operations of expressions. Concatenation has no token: it is written by juxtaposition. -/
inductive Operator where
  | comma | concat | or | and
  | equal | notEqual | greater | greaterEqual | less | lessEqual
  | plus | minus | times | divide | modulo | not
  deriving DecidableEq

inductive LiteralKind where
  | string | number | color | bool
  deriving DecidableEq

def TokenKind.label : TokenKind → String
  | identifier => "ident"
  | reference => "const"
  | openParen => "lparen"
  | closeParen => "rparen"
  | comma => "comma"
  | string => "string"
  | number => "number"
  | color => "color"
  | bool => "bool"
  | or => "or"
  | and => "and"
  | not => "not"
  | equal => "eq"
  | notEqual => "neq"
  | greater => "gt"
  | greaterEqual => "gte"
  | less => "lt"
  | lessEqual => "lte"
  | plus => "plus"
  | minus => "minus"
  | times => "times"
  | divide => "div"
  | modulo => "mod"

def TokenKind.all : List TokenKind :=
  [.identifier, .reference, .openParen, .closeParen, .comma, .string, .number, .color, .bool, .or,
    .and, .not, .equal, .notEqual, .greater, .greaterEqual, .less, .lessEqual, .plus, .minus,
    .times, .divide, .modulo]

theorem TokenKind.mem_all (kind : TokenKind) : kind ∈ all := by
  cases kind <;> decide

def TokenKind.ofLabel? (label : String) : Option TokenKind :=
  all.find? (·.label == label)

def Operator.label : Operator → String
  | comma => "comma"
  | concat => "concat"
  | or => "or"
  | and => "and"
  | equal => "eq"
  | notEqual => "neq"
  | greater => "gt"
  | greaterEqual => "gte"
  | less => "lt"
  | lessEqual => "lte"
  | plus => "plus"
  | minus => "minus"
  | times => "times"
  | divide => "div"
  | modulo => "mod"
  | not => "not"

def Operator.all : List Operator :=
  [.comma, .concat, .or, .and, .equal, .notEqual, .greater, .greaterEqual, .less, .lessEqual,
    .plus, .minus, .times, .divide, .modulo, .not]

theorem Operator.mem_all (operator : Operator) : operator ∈ all := by
  cases operator <;> decide

def Operator.ofLabel? (label : String) : Option Operator :=
  all.find? (·.label == label)

def LiteralKind.label : LiteralKind → String
  | string => "string"
  | number => "number"
  | color => "color"
  | bool => "bool"

def LiteralKind.all : List LiteralKind :=
  [.string, .number, .color, .bool]

def LiteralKind.ofLabel? (label : String) : Option LiteralKind :=
  all.find? (·.label == label)

def Operator.ofToken? : TokenKind → Option Operator
  | .comma => some .comma
  | .or => some .or
  | .and => some .and
  | .not => some .not
  | .equal => some .equal
  | .notEqual => some .notEqual
  | .greater => some .greater
  | .greaterEqual => some .greaterEqual
  | .less => some .less
  | .lessEqual => some .lessEqual
  | .plus => some .plus
  | .minus => some .minus
  | .times => some .times
  | .divide => some .divide
  | .modulo => some .modulo
  | _ => none

def LiteralKind.ofToken? : TokenKind → Option LiteralKind
  | .string => some .string
  | .number => some .number
  | .color => some .color
  | .bool => some .bool
  | _ => none

/-- A kind of token that writes nothing of the wanted sort. -/
structure KindFault where
  kind : TokenKind
  wanted : String
  deriving DecidableEq

def KindFault.message (fault : KindFault) : String :=
  "'" ++ fault.kind.label ++ "' is not a valid " ++ fault.wanted

def Operator.ofToken (kind : TokenKind) : Except KindFault Operator :=
  match ofToken? kind with
  | some operator => .ok operator
  | none => .error ⟨kind, "Operator"⟩

def LiteralKind.ofToken (kind : TokenKind) : Except KindFault LiteralKind :=
  match ofToken? kind with
  | some literal => .ok literal
  | none => .error ⟨kind, "LiteralKind"⟩

/-- A token and its operator go by one label, and only concatenation has no token. -/
theorem Operator.ofToken?_eq_some_iff {kind : TokenKind} {operator : Operator} :
    ofToken? kind = some operator ↔ kind.label = operator.label := by
  cases kind <;> cases operator <;> decide

theorem LiteralKind.ofToken?_eq_some_iff {kind : TokenKind} {literal : LiteralKind} :
    ofToken? kind = some literal ↔ kind.label = literal.label := by
  cases kind <;> cases literal <;> decide

end StyleExpr
