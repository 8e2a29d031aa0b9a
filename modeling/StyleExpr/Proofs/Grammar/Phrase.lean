import StyleExpr.Proofs.Grammar.Chain

/-! The grammar, told without a parser: which token lists are phrases of a level, and which tree each
of them stands for. A word needs one token of context, as an opening parenthesis behind it makes it
the name of a call. -/

namespace StyleExpr

def opens (tokens : List Token) : Bool :=
  tokens.head?.any (·.kind = .openParen)

@[simp] theorem opens_cons (token : Token) (tokens : List Token) :
    opens (token :: tokens) = decide (token.kind = .openParen) := rfl

/-- Parts behind one another, with a comma between each two of them. -/
inductive Separated : List (List Token) → List Token → Prop where
  | none : Separated [] []
  | one : Separated [part] part
  | more (kind : comma.kind = .comma) (others : Separated (next :: parts) tokens) :
      Separated (part :: next :: parts) (part ++ comma :: tokens)

theorem Separated.mem {parts : List (List Token)} {tokens part : List Token}
    (separated : Separated parts tokens) (member : part ∈ parts) :
    ∀ token ∈ part, token ∈ tokens := by
  induction separated with
  | none => cases member
  | one =>
    obtain rfl := List.mem_singleton.mp member
    exact fun token inside => inside
  | more _ _ ih =>
    intro token inside
    rcases List.mem_cons.mp member with rfl | later
    · exact List.mem_append_left _ inside
    · exact List.mem_append_right _ (List.mem_cons_of_mem _ (ih later token inside))

/-- `Phrase level opened tokens expr`: the tokens are a phrase of the level and stand for the
expression. `opened` tells whether an opening parenthesis follows them. Operators of one level
associate to the left, and parentheses leave no node of their own. -/
inductive Phrase : Level → Bool → List Token → Expr → Prop where
  | operand (inner : Phrase level.tighter opened tokens expr) : Phrase level opened tokens expr
  | binary (before : Phrase level false front left)
      (written : Operator.ofToken? token.kind = some operator)
      (joins : operator ∈ level.operators) (behind : Phrase level.tighter opened back right) :
      Phrase level opened (front ++ token :: back) (.binary left right operator left.position)
  /-- A sign would be taken for an operator, so it cannot begin a phrase set beside another. -/
  | concat (before : Phrase .concatenation (opens back) front left)
      (behind : Phrase .disjunction opened back right)
      (unsigned : ∀ token ∈ back.head?, token.kind ≠ .minus ∧ token.kind ≠ .divide) :
      Phrase .concatenation opened (front ++ back) (.binary left right .concat left.position)
  | sign (found : level.sign? = some (operator, token.kind))
      (inner : Phrase level opened tokens expr) :
      Phrase level opened (token :: tokens) (.unary expr operator token.position)
  | word (kind : token.kind = .identifier) :
      Phrase .call false [token] (.literal .string token.value none token.position)
  | call (kind : word.kind = .identifier) (opening : opener.kind = .openParen)
      (closing : closer.kind = .closeParen) (parts : List (List Token × Expr))
      (separated : Separated (parts.map Prod.fst) inside)
      (each : ∀ part ∈ parts, Phrase .concatenation false part.1 part.2) :
      Phrase .call opened (word :: opener :: (inside ++ [closer]))
        (.call word.value (parts.map Prod.snd) word.position)
  | paren (opening : opener.kind = .openParen) (closing : closer.kind = .closeParen)
      (inner : Phrase .expression false inside expr) :
      Phrase .paren opened (opener :: (inside ++ [closer])) expr
  | reference (kind : token.kind = .reference) :
      Phrase .reference opened [token] (.reference token.value token.position)
  | literal (kind : LiteralKind.ofToken? token.kind = some literal) :
      Phrase .literal opened [token] (.literal literal token.value token.unit token.position)

namespace Level

def order : List Level :=
  [expression, concatenation, disjunction, conjunction, equality, relational, additive,
    multiplicative, minus, slash, not, call, paren, reference, literal]

def downward (level : Level) : List Level :=
  order.dropWhile (· ≠ level)

/-- Whether a phrase of the level, but of no tighter one, may begin with a token of the kind. -/
def leads (level : Level) (kind : TokenKind) : Bool :=
  match level with
  | literal => (LiteralKind.ofToken? kind).isSome
  | reference => kind = .reference
  | paren => kind = .openParen
  | call => kind = .identifier
  | _ => level.sign?.any (·.2 = kind)

/-- Whether a phrase of the level may begin with a token of the kind. -/
def starts (level : Level) (kind : TokenKind) : Bool :=
  level.downward.any (·.leads kind)

/-- Whether a token of the kind adds a further operand to a phrase of the level. -/
def joins (level : Level) (kind : TokenKind) : Bool :=
  match level with
  | concatenation => disjunction.starts kind
  | _ => (Operator.ofToken? kind).any (· ∈ level.operators)

/-- Whether a phrase of the level goes on with a token of the kind. -/
def continues (level : Level) (kind : TokenKind) : Bool :=
  level.downward.any (·.joins kind)

theorem starts_eq (level : Level) (kind : TokenKind) :
    level.starts kind = (level.leads kind || level.tighter.starts kind) := by
  cases level <;> cases kind <;> rfl

theorem continues_eq (level : Level) (kind : TokenKind) :
    level.continues kind = (level.joins kind || level.tighter.continues kind) := by
  cases level <;> cases kind <;> rfl

theorem leads_sign {level : Level} {operator : Operator} {kind : TokenKind}
    (found : level.sign? = some (operator, kind)) (other : TokenKind) :
    level.leads other = decide (kind = other) := by
  cases level <;> cases found <;> simp [leads, sign?]

theorem joins_sign {level : Level} {operator : Operator} {kind : TokenKind}
    (found : level.sign? = some (operator, kind)) (other : TokenKind) :
    level.joins other = false := by
  cases level <;> cases found <;> cases other <;> rfl

theorem leads_operators {level : Level} (joined : level.operators ≠ []) (kind : TokenKind) :
    level.leads kind = false := by
  cases level <;> first | rfl | exact absurd rfl joined

theorem joins_operators {level : Level} (joined : level.operators ≠ []) (kind : TokenKind) :
    level.joins kind = (Operator.ofToken? kind).any (· ∈ level.operators) := by
  cases level <;> first | rfl | exact absurd rfl joined

theorem starts_literal (kind : TokenKind) :
    literal.starts kind = (LiteralKind.ofToken? kind).isSome := by
  cases kind <;> rfl

theorem mem_downward {level looser : Level} (below : level ∈ looser.downward) :
    level = looser ∨ level ∈ looser.tighter.downward := by
  revert below
  cases looser <;> cases level <;> decide

theorem expression_continues (kind : TokenKind) :
    expression.continues kind = decide (kind ≠ .closeParen) := by
  cases kind <;> rfl

/-- An operator of a level ends the operand in front of it. -/
theorem tighter_continues_of_operator {level : Level} {kind : TokenKind} {operator : Operator}
    (written : Operator.ofToken? kind = some operator) (joins : operator ∈ level.operators) :
    level.tighter.continues kind = false := by
  cases level <;> cases kind <;> cases written <;> first | rfl | exact absurd joins (by decide)

theorem plain_of_operator {kind : TokenKind} {operator : Operator}
    (written : Operator.ofToken? kind = some operator) :
    kind ≠ .identifier ∧ kind ≠ .openParen := by
  constructor <;> rintro rfl <;> cases written

theorem operator_of_sign {level : Level} {kind : TokenKind} {operator : Operator}
    (found : level.sign? = some (operator, kind)) : operator ∈ [.minus, .divide, .not] := by
  cases level <;> cases found <;> decide

theorem plain_of_sign {level : Level} {kind : TokenKind} {operator : Operator}
    (found : level.sign? = some (operator, kind)) : kind ≠ .identifier := by
  rintro rfl
  cases level <;> cases found

/-- What begins without a sign is no operator, so it ends the phrase in front of it. -/
theorem disjunction_continues_of_starts {kind : TokenKind} (starts : disjunction.starts kind = true)
    (unsigned : kind ≠ .minus ∧ kind ≠ .divide) : disjunction.continues kind = false := by
  cases kind <;> first | rfl | exact absurd rfl unsigned.1 | exact absurd rfl unsigned.2 | cases starts

end Level

/-- Nothing that goes on with a phrase of the level comes next. -/
def Level.Stops (level : Level) (tokens : List Token) : Prop :=
  ∀ token ∈ tokens.head?, level.continues token.kind = false

theorem Level.stops_nil (level : Level) : level.Stops [] :=
  fun _ next => by cases next

theorem Level.Stops.tighter {level : Level} {tokens : List Token} (stops : level.Stops tokens) :
    level.tighter.Stops tokens := by
  intro token next
  have ends := stops token next
  rw [continues_eq, Bool.or_eq_false_iff] at ends
  exact ends.2

/-- Nothing goes on with what is neither joined nor signed. -/
theorem Level.Stops.of_whole {level : Level} {tokens : List Token}
    (whole : level ∈ [call, paren, reference, literal]) : level.Stops tokens := by
  intro token _
  have kinds : ∀ level ∈ [call, paren, reference, literal], level.continues token.kind = false := by
    cases token.kind <;> decide
  exact kinds level whole

namespace Phrase

variable {level : Level} {opened : Bool} {tokens : List Token} {expr : Expr}

/-- A phrase has a first token, and it is one that the level may begin with. -/
theorem head (phrase : Phrase level opened tokens expr) :
    ∃ token rest, tokens = token :: rest ∧ level.starts token.kind = true := by
  induction phrase with
  | operand _ ih =>
    obtain ⟨token, rest, rfl, starts⟩ := ih
    exact ⟨token, rest, rfl, by rw [Level.starts_eq, starts, Bool.or_true]⟩
  | binary _ _ _ _ ih _ | concat _ _ _ ih _ =>
    obtain ⟨token, rest, rfl, starts⟩ := ih
    exact ⟨token, _, rfl, starts⟩
  | sign found _ _ =>
    refine ⟨_, _, rfl, ?_⟩
    rw [Level.starts_eq, Level.leads_sign found]
    simp
  | word kind | call kind | reference kind | paren kind => exact ⟨_, _, rfl, by rw [kind]; rfl⟩
  | literal kind =>
    exact ⟨_, _, rfl, by rw [Level.starts_eq, Level.leads, kind, Option.isSome_some, Bool.true_or]⟩

theorem ne_nil (phrase : Phrase level opened tokens expr) : tokens ≠ [] := by
  obtain ⟨token, rest, rfl, -⟩ := phrase.head
  exact List.cons_ne_nil _ _

theorem loosen {looser : Level} (phrase : Phrase level opened tokens expr)
    (below : level ∈ looser.downward) : Phrase looser opened tokens expr := by
  induction looser using Level.chain_induction with
  | tightest =>
    obtain rfl := List.mem_singleton.mp below
    exact phrase
  | step looser ih =>
    rcases Level.mem_downward below with rfl | tighter
    · exact phrase
    · exact .operand (ih tighter)

theorem ofLiteral {token : Token} {kind : LiteralKind} (level : Level) (opened : Bool)
    (found : LiteralKind.ofToken? token.kind = some kind) :
    Phrase level opened [token] (.literal kind token.value token.unit token.position) :=
  loosen (.literal found) (by cases level <;> decide)

end Phrase

end StyleExpr
