import Mathlib.Data.List.Forall2
import StyleExpr.Proofs.Grammar.Places

/-! The tokens that nodes begin with. Parentheses, commas and operators between two operands begin none;
each other token begins one node, and the walk of a tree meets these nodes in the order of their tokens. -/

namespace StyleExpr

def TokenKind.endsOperand (kind : TokenKind) : Bool :=
  kind ∈ [.identifier, .reference, .closeParen, .string, .number, .color, .bool]

/-- Whether a token of the kind begins a node. A minus or a slash behind an operand stands between two. -/
def TokenKind.headsNode (behindOperand : Bool) : TokenKind → Bool
  | .identifier | .reference | .string | .number | .color | .bool | .not => true
  | .minus | .divide => !behindOperand
  | _ => false

/-- The tokens that begin a node, given whether an operand ends in front of them all. -/
def headTokens (behindOperand : Bool) : List Token → List Token
  | [] => []
  | token :: rest =>
    if token.kind.headsNode behindOperand then token :: headTokens token.kind.endsOperand rest
    else headTokens token.kind.endsOperand rest

/-- `token.Heads node`: the node is one that the token stands for, with its place. -/
inductive Token.Heads (token : Token) : Expr → Prop where
  | sign (written : Operator.ofToken? token.kind = some operator) :
      token.Heads (.unary operand operator token.position)
  | call (kind : token.kind = .identifier) : token.Heads (.call token.value arguments token.position)
  | word (kind : token.kind = .identifier) :
      token.Heads (.literal .string token.value none token.position)
  | reference (kind : token.kind = .reference) : token.Heads (.reference token.value token.position)
  | literal (kind : LiteralKind.ofToken? token.kind = some literal) :
      token.Heads (.literal literal token.value token.unit token.position)

theorem Token.Heads.position_eq {token : Token} {node : Expr} (heads : token.Heads node) :
    node.position = token.position := by
  cases heads <;> rfl

theorem Token.Heads.map_position {tokens : List Token} {nodes : List Expr}
    (heads : List.Forall₂ Token.Heads tokens nodes) :
    nodes.map Expr.position = tokens.map Token.position := by
  induction heads with
  | nil => rfl
  | cons first _ ih => rw [List.map_cons, List.map_cons, first.position_eq, ih]

section Kinds

variable {kind : TokenKind} {operator : Operator} {level : Level}

/-- Behind an operand an operator of a level stands between two, and ends none. -/
theorem plain_of_infix (written : Operator.ofToken? kind = some operator)
    (joins : operator ∈ level.operators) :
    kind.headsNode true = false ∧ kind.endsOperand = false := by
  cases level <;> cases kind <;> cases written <;> first | exact ⟨rfl, rfl⟩ | exact absurd joins (by decide)

theorem heads_of_sign (found : level.sign? = some (operator, kind)) :
    kind.headsNode false = true ∧ kind.endsOperand = false ∧ Operator.ofToken? kind = some operator := by
  cases level <;> cases found <;> exact ⟨rfl, rfl, rfl⟩

theorem heads_of_literal {literal : LiteralKind} (found : LiteralKind.ofToken? kind = some literal) :
    kind.headsNode false = true ∧ kind.endsOperand = true := by
  cases kind <;> cases found <;> exact ⟨rfl, rfl⟩

/-- Only a sign stands for something else where no operand is in front of it. -/
theorem headsNode_unsigned (unsigned : kind ≠ .minus ∧ kind ≠ .divide) :
    kind.headsNode true = kind.headsNode false := by
  cases kind <;> first | rfl | exact absurd rfl unsigned.1 | exact absurd rfl unsigned.2

end Kinds

section Tokens

variable {tokens front back : List Token} {token : Token} {behind : Bool}

/-- Whether an operand ends behind the tokens, given whether one ends in front of them. -/
def endsOperand (behindOperand : Bool) (tokens : List Token) : Bool :=
  tokens.foldl (fun _ token => token.kind.endsOperand) behindOperand

@[simp] theorem endsOperand_cons (behind : Bool) (token : Token) (rest : List Token) :
    endsOperand behind (token :: rest) = endsOperand token.kind.endsOperand rest := rfl

theorem endsOperand_append (behind : Bool) (front back : List Token) :
    endsOperand behind (front ++ back) = endsOperand (endsOperand behind front) back :=
  List.foldl_append

theorem headTokens_append (behind : Bool) (front back : List Token) :
    headTokens behind (front ++ back) =
      headTokens behind front ++ headTokens (endsOperand behind front) back := by
  induction front generalizing behind with
  | nil => rfl
  | cons token front ih =>
    rw [List.cons_append, headTokens, headTokens, ih, endsOperand_cons]
    split <;> rfl

theorem headTokens_of_headsNode (heads : token.kind.headsNode behind = true) :
    headTokens behind (token :: back) = token :: headTokens token.kind.endsOperand back := by
  rw [headTokens, if_pos heads]

theorem headTokens_of_not_headsNode (plain : token.kind.headsNode behind = false) :
    headTokens behind (token :: back) = headTokens token.kind.endsOperand back := by
  rw [headTokens, if_neg (Bool.eq_false_iff.mp plain)]

theorem headTokens_unsigned
    (unsigned : ∀ token ∈ tokens.head?, token.kind ≠ .minus ∧ token.kind ≠ .divide) :
    headTokens true tokens = headTokens false tokens := by
  cases tokens with
  | nil => rfl
  | cons token rest => rw [headTokens, headTokens, headsNode_unsigned (unsigned token rfl)]

/-- A token that begins no node and ends no operand leaves no trace. -/
theorem headTokens_between (plain : token.kind.headsNode behind = false)
    (opens : token.kind.endsOperand = false) :
    headTokens behind (token :: back) = headTokens false back := by
  rw [headTokens_of_not_headsNode plain, opens]

theorem headTokens_opening (kind : token.kind = .openParen) :
    headTokens behind (token :: back) = headTokens false back :=
  headTokens_between (by rw [kind]; rfl) (by rw [kind]; rfl)

theorem headTokens_closing (kind : token.kind = .closeParen) : headTokens behind [token] = [] := by
  rw [headTokens_of_not_headsNode (by rw [kind]; rfl)]
  rfl

theorem headTokens_sublist (behind : Bool) (tokens : List Token) :
    (headTokens behind tokens).Sublist tokens := by
  induction tokens generalizing behind with
  | nil => exact .slnil
  | cons token rest ih =>
    rw [headTokens]
    split
    · exact (ih _).cons_cons token
    · exact (ih _).cons token

theorem Separated.headTokens_eq {parts : List (List Token)} (separated : Separated parts tokens) :
    headTokens false tokens = parts.flatMap (headTokens false) := by
  induction separated with
  | none => rfl
  | one => simp
  | more kind _ ih =>
    rw [headTokens_append, headTokens_between (by rw [kind]; rfl) (by rw [kind]; rfl), ih]
    rfl

end Tokens

namespace Phrase

variable {level : Level} {opened : Bool} {tokens : List Token} {expr : Expr}

theorem ends (phrase : Phrase level opened tokens expr) (behind : Bool) :
    endsOperand behind tokens = true := by
  induction phrase generalizing behind with
  | operand _ ih => exact ih behind
  | binary _ _ _ _ _ ih => rw [endsOperand_append, endsOperand_cons, ih]
  | concat _ _ _ _ ih => rw [endsOperand_append, ih]
  | sign _ _ ih => rw [endsOperand_cons, ih]
  | call _ _ closing | paren _ closing =>
    simp only [endsOperand_cons, endsOperand_append, closing]
    rfl
  | word kind | reference kind => rw [endsOperand_cons, kind]; rfl
  | literal kind => exact (heads_of_literal kind).2

/-- A tree stands where its first node does that joins no two operands. -/
theorem position_leftmost (phrase : Phrase level opened tokens expr) :
    expr.position = expr.leftmost.position := by
  induction phrase with
  | operand _ ih | paren _ _ _ ih => exact ih
  | binary _ _ _ _ ih | concat _ _ _ ih => exact ih
  | sign | word | call | reference | literal => rfl

/-- The nodes of a tree that join no two operands correspond, in the order of the walk, to the tokens
that begin a node. -/
theorem heads (phrase : Phrase level opened tokens expr) :
    List.Forall₂ Token.Heads (headTokens false tokens) expr.headed := by
  induction phrase with
  | operand _ ih => exact ih
  | binary before written joins behind ih ih' =>
    obtain ⟨plain, opens⟩ := plain_of_infix written joins
    rw [headTokens_append, before.ends, headTokens_between plain opens, Expr.headed_binary]
    exact List.rel_append ih ih'
  | concat before behind unsigned ih ih' =>
    rw [headTokens_append, before.ends, headTokens_unsigned unsigned, Expr.headed_binary]
    exact List.rel_append ih ih'
  | sign found inner ih =>
    obtain ⟨heads, opens, written⟩ := heads_of_sign found
    rw [headTokens_of_headsNode heads, opens, Expr.headed_unary]
    exact .cons (.sign written) ih
  | word kind =>
    rw [headTokens_of_headsNode (by rw [kind]; rfl), Expr.headed_literal]
    exact .cons (.word kind) .nil
  | call kind opening closing parts separated each ih =>
    have inside : List.Forall₂ Token.Heads ((parts.map Prod.fst).flatMap (headTokens false))
        ((parts.map Prod.snd).flatMap Expr.headed) := by
      rw [List.flatMap_map, List.flatMap_map]
      exact List.rel_flatMap (List.forall₂_same.mpr ih) fun _ _ heads => heads
    rw [headTokens_of_headsNode (by rw [kind]; rfl), headTokens_opening opening, headTokens_append,
      headTokens_closing closing, List.append_nil, separated.headTokens_eq, Expr.headed_call]
    exact .cons (.call kind) inside
  | paren opening closing inner ih =>
    rw [headTokens_opening opening, headTokens_append, headTokens_closing closing, List.append_nil]
    exact ih
  | reference kind =>
    rw [headTokens_of_headsNode (by rw [kind]; rfl), Expr.headed_reference]
    exact .cons (.reference kind) .nil
  | literal kind =>
    rw [headTokens_of_headsNode (heads_of_literal kind).1, Expr.headed_literal]
    exact .cons (.literal kind) .nil

end Phrase

end StyleExpr
