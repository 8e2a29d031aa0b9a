import StyleExpr.Proofs.Expr.Spelling
import StyleExpr.Proofs.Grammar.Account

/-! Lexemes that stand for a tree. Tokens of such lexemes are one operand, which is the tree up to
places, and no word among them is bare. -/

namespace StyleExpr

open Lexeme

namespace Expr

def unplaced (expr : Expr) : Expr :=
  expr.moved fun _ => default

variable {position : Position}

@[simp] theorem unplaced_binary {left right : Expr} {operator : Operator} :
    (binary left right operator position).unplaced =
      binary left.unplaced right.unplaced operator default := rfl

@[simp] theorem unplaced_unary {operand : Expr} {operator : Operator} :
    (unary operand operator position).unplaced = unary operand.unplaced operator default := rfl

@[simp] theorem unplaced_call {name : Value} {arguments : List Expr} :
    (call name arguments position).unplaced = call name (arguments.map unplaced) default := by
  simp only [unplaced, moved, movedAll_eq_map]
  rfl

@[simp] theorem unplaced_reference {name : Value} :
    (reference name position).unplaced = reference name default := rfl

@[simp] theorem unplaced_literal {kind : LiteralKind} {value : Value} {unit : Option Text} :
    (literal kind value unit position).unplaced = literal kind value unit default := rfl

@[simp] theorem unplaced_moved {place : Position → Position} (expr : Expr) :
    (expr.moved place).unplaced = expr.unplaced := by
  induction expr using tree_induction with
  | binary left right operator position left_ih right_ih => simp [moved, left_ih, right_ih]
  | unary operand operator position ih => simp [moved, ih]
  | call name arguments position ih =>
    have same : (arguments.map (moved place)).map unplaced = arguments.map unplaced := by
      rw [List.map_map]
      exact List.map_congr_left ih
    simp only [moved, movedAll_eq_map, unplaced_call, same]
  | reference | literal | bare => rfl

end Expr

/-- Every word among the tokens is called. -/
def Called (tokens : List Token) : Prop :=
  ∀ rest, bareWords tokens rest = []

/-- Tokens of these lexemes are an operand, and it is the tree up to places. -/
def Stands (expr : Expr) (lexemes : List Lexeme) : Prop :=
  ∀ tokens, tokens.map Token.lexeme = lexemes → Called tokens ∧
    ∃ again, (∀ opened, Phrase .call opened tokens again) ∧ again.unplaced = expr.unplaced

def StandsAll (exprs : List Expr) (lexemes : List Lexeme) : Prop :=
  ∀ tokens, tokens.map Token.lexeme = lexemes → Called tokens ∧
    ∃ parts : List (List Token × Expr), Separated (parts.map Prod.fst) tokens ∧
      (∀ part ∈ parts, Phrase .concatenation false part.1 part.2) ∧
      (parts.map Prod.snd).map Expr.unplaced = exprs.map Expr.unplaced

variable {tokens front back : List Token} {token : Token} {expr left right : Expr}
variable {operator : Operator} {lexemes first second : List Lexeme} {lexeme : Lexeme}

theorem called_nil : Called [] :=
  fun _ => rfl

theorem Called.append (before : Called front) (behind : Called back) : Called (front ++ back) := by
  intro rest
  rw [bareWords_append, before, behind]
  rfl

theorem Called.cons (other : token.kind ≠ .identifier) (others : Called tokens) :
    Called (token :: tokens) := by
  intro rest
  rw [bareWords_cons_other other, others]

theorem called_of_kinds (others : ∀ token ∈ tokens, token.kind ≠ .identifier) : Called tokens := by
  induction tokens with
  | nil => exact called_nil
  | cons token tokens ih =>
    rw [List.forall_mem_cons] at others
    exact (ih others.2).cons others.1

theorem kind_of_lexeme (same : token.lexeme = lexeme) : token.kind = lexeme.kind :=
  congrArg Lexeme.kind same

/-- The operators between operands other than juxtaposition have one lexeme and a level. -/
theorem Operator.exists_level (infixed : operator ≠ .not) (joined : operator ≠ .concat) :
    ∃ level lexeme, infixLexemes operator = [lexeme] ∧
      Operator.ofToken? lexeme.kind = some operator ∧ operator ∈ level.operators ∧
      Level.call ∈ level.tighter.downward ∧ level ∈ Level.expression.downward := by
  cases operator with
  | comma => exact ⟨.expression, _, rfl, rfl, by decide⟩
  | concat => exact absurd rfl joined
  | or => exact ⟨.disjunction, _, rfl, rfl, by decide⟩
  | and => exact ⟨.conjunction, _, rfl, rfl, by decide⟩
  | equal | notEqual => exact ⟨.equality, _, rfl, rfl, by decide⟩
  | greater | greaterEqual | less | lessEqual => exact ⟨.relational, _, rfl, rfl, by decide⟩
  | plus | minus => exact ⟨.additive, _, rfl, rfl, by decide⟩
  | times | divide | modulo => exact ⟨.multiplicative, _, rfl, rfl, by decide⟩
  | not => exact absurd rfl infixed

theorem Operator.exists_sign (prefixed : operator ∈ [.minus, .divide, .not]) :
    ∃ level, Level.sign? level = some (operator, (prefixLexeme operator).kind) ∧
      Level.call ∈ level.downward ∧ level ∈ Level.expression.downward := by
  simp only [List.mem_cons, List.not_mem_nil, or_false] at prefixed
  rcases prefixed with rfl | rfl | rfl
  · exact ⟨.minus, rfl, by decide⟩
  · exact ⟨.slash, rfl, by decide⟩
  · exact ⟨.not, rfl, by decide⟩

theorem Level.unsigned_of_call_starts {kind : TokenKind} (starts : call.starts kind = true) :
    kind ≠ .minus ∧ kind ≠ .divide := by
  constructor <;> rintro rfl <;> exact absurd starts (by decide)

theorem Phrase.operation {between : List Token} (before : ∀ opened, Phrase .call opened front left)
    (behind : ∀ opened, Phrase .call opened back right) (infixed : operator ≠ .not)
    (same : between.map Token.lexeme = infixLexemes operator) :
    Phrase .expression false (front ++ (between ++ back))
      (.binary left right operator left.position) := by
  by_cases juxtaposed : operator = .concat
  · subst juxtaposed
    obtain rfl := List.map_eq_nil_iff.mp same
    have unsigned : ∀ token ∈ back.head?, token.kind ≠ .minus ∧ token.kind ≠ .divide := by
      obtain ⟨token, rest, rfl, starts⟩ := (behind false).head
      rintro _ ⟨⟩
      exact Level.unsigned_of_call_starts starts
    have first := (before (opens back)).loosen (show Level.call ∈ Level.concatenation.downward by decide)
    have second := (behind false).loosen (show Level.call ∈ Level.disjunction.downward by decide)
    exact (Phrase.concat first second unsigned).loosen (by decide)
  · obtain ⟨level, lexeme, spelled, written, joins, tight, loose⟩ :=
      Operator.exists_level infixed juxtaposed
    rw [spelled] at same
    obtain ⟨token, rfl, rfl⟩ := List.map_eq_singleton_iff.mp same
    have first : Phrase level false front left := .operand ((before false).loosen tight)
    exact (Phrase.binary first written joins ((behind false).loosen tight)).loosen loose

theorem exists_enclosed
    (same : tokens.map Token.lexeme = openLexeme :: (lexemes ++ [closeLexeme])) :
    ∃ (opener : Token) (inside : List Token) (closer : Token),
      tokens = opener :: (inside ++ [closer]) ∧ opener.kind = .openParen ∧
        inside.map Token.lexeme = lexemes ∧ closer.kind = .closeParen := by
  obtain ⟨opener, others, rfl, opening, behind⟩ := List.map_eq_cons_iff.mp same
  obtain ⟨inside, ending, rfl, inner, last⟩ := List.map_eq_append_iff.mp behind
  obtain ⟨closer, rfl, closing⟩ := List.map_eq_singleton_iff.mp last
  exact ⟨opener, inside, closer, rfl, kind_of_lexeme opening, inner, kind_of_lexeme closing⟩

theorem Called.enclosed {opener closer : Token} (opening : opener.kind = .openParen)
    (closing : closer.kind = .closeParen) (inner : Called tokens) :
    Called (opener :: (tokens ++ [closer])) := by
  have opens : opener.kind ≠ .identifier := by simp [opening]
  have closes : closer.kind ≠ .identifier := by simp [closing]
  exact (inner.append (called_nil.cons closes)).cons opens

theorem called_between {between : List Token} (same : between.map Token.lexeme = infixLexemes operator) :
    Called between := by
  have others : ∀ lexeme ∈ infixLexemes operator, lexeme.kind ≠ .identifier := by
    cases operator <;> decide
  rw [← same, List.forall_mem_map] at others
  exact called_of_kinds others

namespace Stands

theorem enclosed
    (inner : ∀ tokens, tokens.map Token.lexeme = lexemes → Called tokens ∧
      ∃ again, Phrase .expression false tokens again ∧ again.unplaced = expr.unplaced) :
    Stands expr (openLexeme :: (lexemes ++ [closeLexeme])) := by
  intro tokens same
  obtain ⟨opener, inside, closer, rfl, opening, within, closing⟩ := exists_enclosed same
  obtain ⟨called, again, phrase, alike⟩ := inner inside within
  refine ⟨called.enclosed opening closing, again, ?_, alike⟩
  exact fun _ => (Phrase.paren opening closing phrase).loosen (by decide)

theorem binary {position : Position} (before : Stands left first) (behind : Stands right second)
    (infixed : operator ≠ .not) :
    Stands (.binary left right operator position)
      (openLexeme :: (first ++ (infixLexemes operator ++ second) ++ [closeLexeme])) := by
  apply enclosed
  intro tokens same
  obtain ⟨front, others, rfl, fronts, later⟩ := List.map_eq_append_iff.mp same
  obtain ⟨between, back, rfl, middle, backs⟩ := List.map_eq_append_iff.mp later
  obtain ⟨called, left', phrase, alike⟩ := before front fronts
  obtain ⟨called', right', phrase', alike'⟩ := behind back backs
  refine ⟨called.append ((called_between middle).append called'), _,
    .operation phrase phrase' infixed middle, ?_⟩
  simp only [Expr.unplaced_binary, alike, alike']

theorem unary {position : Position} (inner : Stands expr lexemes)
    (prefixed : operator ∈ [.minus, .divide, .not]) :
    Stands (.unary expr operator position)
      (openLexeme :: (prefixLexeme operator :: lexemes ++ [closeLexeme])) := by
  apply enclosed
  intro tokens same
  obtain ⟨sign, operand, rfl, signs, others⟩ := List.map_eq_cons_iff.mp same
  obtain ⟨called, again, phrase, alike⟩ := inner operand others
  obtain ⟨level, found, tight, loose⟩ := Operator.exists_sign prefixed
  rw [← kind_of_lexeme signs] at found
  refine ⟨called.cons (Level.plain_of_sign found), _,
    (Phrase.sign found ((phrase false).loosen tight)).loosen loose, ?_⟩
  simp only [Expr.unplaced_unary, alike]

theorem call {name : Value} {arguments : List Expr} {position : Position}
    (inner : StandsAll arguments lexemes) :
    Stands (.call name arguments position)
      (⟨.identifier, name, none⟩ :: openLexeme :: (lexemes ++ [closeLexeme])) := by
  intro tokens same
  obtain ⟨word, others, rfl, worded, behind⟩ := List.map_eq_cons_iff.mp same
  obtain ⟨opener, inside, closer, rfl, opening, within, closing⟩ := exists_enclosed behind
  obtain ⟨called, parts, separated, each, alike⟩ := inner inside within
  constructor
  · intro rest
    rw [bareWords, called.enclosed opening closing]
    simp [opening]
  · refine ⟨_, fun _ => .call (kind_of_lexeme worded) opening closing parts separated each, ?_⟩
    have named : word.value = name := congrArg Lexeme.value worded
    simp only [Expr.unplaced_call, named, alike]

theorem reference {name : Value} {position : Position} :
    Stands (.reference name position) [⟨.reference, name, none⟩] := by
  intro tokens same
  obtain ⟨token, rfl, fits⟩ := List.map_eq_singleton_iff.mp same
  have kind : token.kind = .reference := kind_of_lexeme fits
  have named : token.value = name := congrArg Lexeme.value fits
  refine ⟨called_nil.cons (by simp [kind]), _, fun _ => (Phrase.reference kind).loosen (by decide), ?_⟩
  simp only [Expr.unplaced_reference, named]

theorem literal {kind : TokenKind} {literal : LiteralKind} {value : Value} {unit : Option Text}
    {position : Position} (found : LiteralKind.ofToken? kind = some literal) :
    Stands (.literal literal value unit position) [⟨kind, value, unit⟩] := by
  intro tokens same
  obtain ⟨⟨kind, value, place, unit⟩, rfl, fits⟩ := List.map_eq_singleton_iff.mp same
  cases fits
  have other : kind ≠ .identifier := by
    rintro rfl
    cases found
  exact ⟨called_nil.cons other, _, fun opened => .ofLiteral .call opened found, rfl⟩

end Stands

namespace StandsAll

theorem none : StandsAll [] [] := by
  intro tokens same
  obtain rfl := List.map_eq_nil_iff.mp same
  exact ⟨called_nil, [], .none, by simp, rfl⟩

theorem one (stands : Stands expr lexemes) : StandsAll [expr] lexemes := by
  intro tokens same
  obtain ⟨called, again, phrase, alike⟩ := stands tokens same
  have part := (phrase false).loosen (show Level.call ∈ Level.concatenation.downward by decide)
  exact ⟨called, [(tokens, again)], .one, by simpa using part, by simpa using alike⟩

theorem more {next : Expr} {exprs : List Expr} (stands : Stands expr first)
    (others : StandsAll (next :: exprs) second) :
    StandsAll (expr :: next :: exprs) (first ++ commaLexeme :: second) := by
  intro tokens same
  obtain ⟨front, behind, rfl, fronts, later⟩ := List.map_eq_append_iff.mp same
  obtain ⟨comma, back, rfl, commas, backs⟩ := List.map_eq_cons_iff.mp later
  obtain ⟨called, again, phrase, alike⟩ := stands front fronts
  obtain ⟨called', parts, separated, each, alike'⟩ := others back backs
  have kind : comma.kind = .comma := kind_of_lexeme commas
  have part : Phrase .concatenation false front again := (phrase false).loosen (by decide)
  refine ⟨called.append (called'.cons (by simp [kind])), (front, again) :: parts, ?_, ?_, ?_⟩
  · cases parts with
    | nil => simp at alike'
    | cons => exact .more kind separated
  · exact List.forall_mem_cons.mpr ⟨part, each⟩
  · simp only [List.map_cons, alike] at alike' ⊢
    rw [alike']

end StandsAll

end StyleExpr
