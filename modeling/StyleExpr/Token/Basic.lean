import StyleExpr.Position
import StyleExpr.Token.Kind
import StyleExpr.Value

/-! Tokens: what a source text is read into. -/

namespace StyleExpr

structure Token where
  kind : TokenKind
  /-- The value of a literal, the bare name of a reference, else the spelling. -/
  value : Value
  position : Position
  /-- The unit behind a number. -/
  unit : Option Text
  deriving DecidableEq

namespace Token

/-- A token in displays. An empty unit is not shown, nor is a missing one. -/
def display (token : Token) : Text :=
  "Token(" ++ token.kind.label ++ ", " ++ token.value.plain ++ token.unit.getD "" ++ ")"

/-- Equality of tokens compares their places too, and their values by what they denote. -/
def same (a b : Token) : Bool :=
  a.kind == b.kind && a.value.same b.value && a.unit == b.unit && a.position == b.position

/-- A value that should have been measured has no length. -/
structure LengthFault where
  value : Value
  deriving DecidableEq

def LengthFault.message (fault : LengthFault) : Text :=
  "object of type '" ++ fault.value.form ++ "' has no len()"

private def measured (value : Value) : Except LengthFault Nat :=
  match value.length? with
  | some length => .ok length
  | none => .error ⟨value⟩

/-- How many characters the token spans in its source, judged by its value alone: an escaped text
spans more, and a colour counts as written with six digits. -/
def width (token : Token) : Except LengthFault Nat :=
  match token.kind with
  | .reference => (measured token.value).map (· + 1)
  | .string => (measured token.value).map (· + 2)
  | .number => .ok (token.value.plain.length + (token.unit.getD "").length)
  | .bool => .ok token.value.plain.length
  | .color => .ok 7
  | _ => measured token.value

/-- A refused assignment to a part of a token. -/
structure AssignmentFault where
  part : Text

def AssignmentFault.message (fault : AssignmentFault) : Text :=
  "Token is immutable; cannot set '" ++ fault.part ++ "'"

/-- No part of a token can be assigned, whether or not tokens have such a part. -/
def assign (_ : Token) (part : Text) (_ : Value) : Except AssignmentFault Token :=
  .error ⟨part⟩

end Token

end StyleExpr
