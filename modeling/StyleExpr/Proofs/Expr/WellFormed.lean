import StyleExpr.Proofs.Expr.Moved
import StyleExpr.Proofs.Grammar.Phrase
import StyleExpr.Proofs.Source.Lexing

/-! Well-formed trees: those that the grammar can tell. The tokens that a lexer gives make no others. -/

namespace StyleExpr

open Lexeme

/-- A name that is neither a keyword nor a truth value nor a colour. -/
structure IsWord (name : Text) : Prop where
  named : IsName name.toList
  keyword : spelled? name.toList = none
  truth : truthWord? name = none
  color : namedColor? name = none

/-- Numbers with a written form: integers from zero that are not too long, and finite numbers without
a sign. -/
inductive Value.IsWritable : Value → Prop where
  | int {number : Nat} (short : number < 10 ^ integerDigitLimit) : IsWritable (.int number)
  | float (rank : Fin Double.finiteCount) : IsWritable (.float (.finite false rank))

/-- Numbers that are read off a text: a numeral with a point may be too large to be finite. -/
inductive Value.IsReadable : Value → Prop where
  | writable {value : Value} (writable : value.IsWritable) : IsReadable value
  | infinite : IsReadable (.float (.infinite false))

/-- A colour has three channels of eight bits. -/
inductive Value.IsColor : Value → Prop where
  | channels {red green blue : Nat} (smallRed : red < 256) (smallGreen : green < 256)
      (smallBlue : blue < 256) : IsColor (.tuple [red, green, blue])

namespace Expr

/-- Trees in which operators stand in operations of their kind, names are names, and literals hold
values of their kind. `numbers` tells which numbers may occur. -/
inductive WellFormed (numbers : Value → Prop) : Expr → Prop where
  | binary {left right : Expr} {operator : Operator} {position : Position}
      (first : WellFormed numbers left) (second : WellFormed numbers right)
      (infixed : operator ≠ .not) : WellFormed numbers (.binary left right operator position)
  | unary {operand : Expr} {operator : Operator} {position : Position}
      (inner : WellFormed numbers operand) (prefixed : operator ∈ [.minus, .divide, .not]) :
      WellFormed numbers (.unary operand operator position)
  | call {name : Text} {arguments : List Expr} {position : Position} (word : IsWord name)
      (each : ∀ argument ∈ arguments, WellFormed numbers argument) :
      WellFormed numbers (.call (.text name) arguments position)
  | reference {name : Text} {position : Position} (named : IsName name.toList) :
      WellFormed numbers (.reference (.text name) position)
  | string {content : Text} {position : Position} :
      WellFormed numbers (.literal .string (.text content) none position)
  | number {value : Value} {unit : Option Text} {position : Position} (number : numbers value)
      (measured : ∀ text ∈ unit, IsUnit text.toList) :
      WellFormed numbers (.literal .number value unit position)
  | color {value : Value} {position : Position} (color : value.IsColor) :
      WellFormed numbers (.literal .color value none position)
  | bool {truth : Bool} {position : Position} :
      WellFormed numbers (.literal .bool (.bool truth) none position)

inductive HasInfinity : Expr → Prop where
  | literal (kind : LiteralKind) (negative : Bool) (unit : Option Text) (position : Position) :
      HasInfinity (.literal kind (.float (.infinite negative)) unit position)
  | child {node child : Expr} (member : child ∈ node.children) (inner : HasInfinity child) :
      HasInfinity node

variable {numbers : Value → Prop} {expr : Expr}

theorem WellFormed.mono {more : Value → Prop} (wellFormed : expr.WellFormed numbers)
    (fewer : ∀ value, numbers value → more value) : expr.WellFormed more := by
  induction wellFormed with
  | binary _ _ infixed first second => exact .binary first second infixed
  | unary _ prefixed inner => exact .unary inner prefixed
  | call word _ each => exact .call word each
  | reference named => exact .reference named
  | string => exact .string
  | number number measured => exact .number (fewer _ number) measured
  | color color => exact .color color
  | bool => exact .bool

theorem WellFormed.child (wellFormed : expr.WellFormed numbers) :
    ∀ child ∈ expr.children, child.WellFormed numbers := by
  cases wellFormed with
  | binary first second => simpa [children] using ⟨first, second⟩
  | unary inner => simpa [children] using inner
  | call _ each => exact each
  | reference | string | number | color | bool => simp [children]

theorem WellFormed.writable (wellFormed : expr.WellFormed Value.IsReadable)
    (finite : ¬ expr.HasInfinity) : expr.WellFormed Value.IsWritable := by
  induction wellFormed with
  | binary _ _ infixed first second =>
    have left := first fun inner => finite (.child (by simp [children]) inner)
    have right := second fun inner => finite (.child (by simp [children]) inner)
    exact .binary left right infixed
  | unary _ prefixed inner =>
    have operand := inner fun inner => finite (.child (by simp [children]) inner)
    exact .unary operand prefixed
  | call word _ each =>
    exact .call word fun argument member =>
      each argument member fun inner => finite (.child member inner)
  | reference named => exact .reference named
  | string => exact .string
  | number number measured =>
    cases number with
    | writable writable => exact .number writable measured
    | infinite => exact (finite (.literal _ _ _ _)).elim
  | color color => exact .color color
  | bool => exact .bool

theorem WellFormed.finite (wellFormed : expr.WellFormed Value.IsWritable) : ¬ expr.HasInfinity := by
  intro infinity
  induction infinity with
  | literal =>
    cases wellFormed with
    | number number => cases number
    | color color => cases color
  | child member _ ih => exact ih (wellFormed.child _ member)

end Expr

def Lexeme.Sound (numbers : Value → Prop) (lexeme : Lexeme) : Prop :=
  match lexeme.kind with
  | .identifier => ∃ name, lexeme.value = .text name ∧ IsWord name
  | .reference => ∃ name, lexeme.value = .text name ∧ IsName name.toList
  | .string => (∃ content, lexeme.value = .text content) ∧ lexeme.unit = none
  | .number => numbers lexeme.value ∧ ∀ text ∈ lexeme.unit, IsUnit text.toList
  | .color => lexeme.value.IsColor ∧ lexeme.unit = none
  | .bool => (∃ truth, lexeme.value = .bool truth) ∧ lexeme.unit = none
  | _ => True

theorem LiteralKind.ofToken?_cases {kind : TokenKind} {literal : LiteralKind}
    (found : ofToken? kind = some literal) :
    (kind = .string ∧ literal = .string) ∨ (kind = .number ∧ literal = .number) ∨
      (kind = .color ∧ literal = .color) ∨ (kind = .bool ∧ literal = .bool) := by
  cases kind <;> cases found <;> simp

theorem wellFormed_literal {numbers : Value → Prop} {token : Token} {literal : LiteralKind}
    (found : LiteralKind.ofToken? token.kind = some literal) (fits : token.lexeme.Sound numbers) :
    (Expr.literal literal token.value token.unit token.position).WellFormed numbers := by
  rcases LiteralKind.ofToken?_cases found with
    ⟨kind, rfl⟩ | ⟨kind, rfl⟩ | ⟨kind, rfl⟩ | ⟨kind, rfl⟩
  · simp only [Lexeme.Sound, Token.lexeme, kind] at fits
    obtain ⟨⟨content, value⟩, unit⟩ := fits
    rw [value, unit]
    exact .string
  · simp only [Lexeme.Sound, Token.lexeme, kind] at fits
    exact .number fits.1 fits.2
  · simp only [Lexeme.Sound, Token.lexeme, kind] at fits
    rw [fits.2]
    exact .color fits.1
  · simp only [Lexeme.Sound, Token.lexeme, kind] at fits
    obtain ⟨⟨truth, value⟩, unit⟩ := fits
    rw [value, unit]
    exact .bool

theorem Phrase.wellFormed {numbers : Value → Prop} {level : Level} {opened : Bool}
    {tokens : List Token} {expr : Expr} (phrase : Phrase level opened tokens expr)
    (sound : ∀ token ∈ tokens, token.lexeme.Sound numbers) : expr.WellFormed numbers := by
  induction phrase with
  | operand _ ih => exact ih sound
  | @binary level front left operator opened back right token _ _ joins _ before_ih behind_ih =>
    have first := before_ih fun token member => sound token (List.mem_append_left _ member)
    have second := behind_ih fun token member =>
      sound token (List.mem_append_right _ (List.mem_cons_of_mem _ member))
    refine .binary first second ?_
    rintro rfl
    cases level <;> exact absurd joins (by decide)
  | concat _ _ _ before_ih behind_ih =>
    have first := before_ih fun token member => sound token (List.mem_append_left _ member)
    have second := behind_ih fun token member => sound token (List.mem_append_right _ member)
    exact .binary first second (by decide)
  | @sign operator level opened tokens expr token found _ ih =>
    have operand := ih fun token member => sound token (List.mem_cons_of_mem _ member)
    exact .unary operand (Level.operator_of_sign found)
  | @word token kind =>
    have fits := sound token (List.mem_singleton_self _)
    simp only [Lexeme.Sound, Token.lexeme, kind] at fits
    obtain ⟨name, value, -⟩ := fits
    rw [value]
    exact .string
  | @call inside opened word opener closer kind opening closing parts separated each ih =>
    have fits := sound word (List.mem_cons_self ..)
    simp only [Lexeme.Sound, Token.lexeme, kind] at fits
    obtain ⟨name, value, word⟩ := fits
    rw [value]
    refine .call word ?_
    intro argument member
    obtain ⟨part, listed, rfl⟩ := List.mem_map.mp member
    refine ih part listed fun token member => sound token ?_
    have inside := separated.mem (List.mem_map_of_mem listed) token member
    simp [inside]
  | paren _ _ _ ih =>
    apply ih
    intro token member
    apply sound
    simp [member]
  | @reference opened token kind =>
    have fits := sound token (List.mem_singleton_self _)
    simp only [Lexeme.Sound, Token.lexeme, kind] at fits
    obtain ⟨name, value, named⟩ := fits
    rw [value]
    exact .reference named
  | @literal literal opened token found =>
    exact wellFormed_literal found (sound token (List.mem_singleton_self _))

end StyleExpr
