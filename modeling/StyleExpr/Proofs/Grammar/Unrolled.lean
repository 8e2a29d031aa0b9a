import StyleExpr.Proofs.Grammar.Dialogue

/-! The grammar as a bare recursion. Its loops go on as long as they find something, and its levels call
each other as they like; only a call that is nested too deep gives nothing. On stored tokens every run
ends at some depth, and gives what the bounded levels give. -/

namespace StyleExpr.Unrolled

open Grammar StyleExpr.Parser
open Pairing (present)

/-- Runs of a parser that may give nothing at all. -/
abbrev Run (σ α : Type) := ExceptT Fault (StateT (Parser σ) Option) α

variable {σ α β : Type}

def Run.of (action : Parse σ α) : Run σ α := fun parser =>
  some (outcome (action parser))

/-- What a call gives that is nested too deep. -/
def Run.cut : Run σ α := fun _ => none

/-- The recursion ends so: some depth suffices for it, and a greater one makes no difference. -/
def EndsIn (run : Nat → Run σ α) (parser : Parser σ) (result : Except Fault α × Parser σ) : Prop :=
  ∃ depth, ∀ deeper, depth ≤ deeper → run deeper parser = some result

section Levels

variable [TokenSource σ]

mutual

/-- The parser of a level, with calls nested no deeper than a depth. -/
def parse : Nat → Level → Run σ (Option Expr)
  | 0, _ => .cut
  | depth + 1, level =>
    match level with
    | .literal => Run.of literal
    | .reference => do
      match ← Run.of (take? [.reference]) with
      | none => parse depth .literal
      | some token => return some (.reference token.value token.position)
    | .paren => do
      match ← Run.of (take? [.openParen]) with
      | none => parse depth .reference
      | some _ =>
        let inner ← required depth .expression
        let _ ← Run.of (take [.closeParen])
        return some inner
    | .call => do
      match ← Run.of (take? [.identifier]) with
      | none => parse depth .paren
      | some word =>
        match ← Run.of (take? [.openParen]) with
        | none =>
          Run.of (warn (implicitStringWarning word.value))
          return some (.literal .string word.value none word.position)
        | some _ =>
          let inner ← arguments depth
          let _ ← Run.of (take [.closeParen])
          return some (.call word.value inner word.position)
    | .not => signed depth .not .not .not
    | .slash => signed depth .slash .divide .divide
    | .minus => signed depth .minus .minus .minus
    | .multiplicative => joined depth .multiplicative
    | .additive => joined depth .additive
    | .relational => joined depth .relational
    | .equality => joined depth .equality
    | .conjunction => joined depth .conjunction
    | .disjunction => joined depth .disjunction
    | .concatenation => do
      match ← parse depth .disjunction with
      | none => return none
      | some first => return some (← concat depth first)
    | .expression => joined depth .expression

def required : Nat → Level → Run σ Expr
  | 0, _ => .cut
  | depth + 1, level => do
    match ← parse depth level with
    | some expr => return expr
    | none => Run.of (nextKind >>= fun found => fail (.expectedExpression found))

def signed : Nat → Level → Operator → TokenKind → Run σ (Option Expr)
  | 0, _, _, _ => .cut
  | depth + 1, level, operator, kind => do
    match ← Run.of (take? [kind]) with
    | none => parse depth level.tighter
    | some token => return some (.unary (← required depth level) operator token.position)

def joined : Nat → Level → Run σ (Option Expr)
  | 0, _ => .cut
  | depth + 1, level => do
    match ← parse depth level.tighter with
    | none => return none
    | some first => return some (← operators depth level first)

def operators : Nat → Level → Expr → Run σ Expr
  | 0, _, _ => .cut
  | depth + 1, level, left => do
    match ← Run.of (accept fun kind => (Operator.ofToken? kind).filter (· ∈ level.operators)) with
    | none => return left
    | some (_, operator) =>
      let right ← required depth level.tighter
      operators depth level (.binary left right operator left.position)

def concat : Nat → Expr → Run σ Expr
  | 0, _ => .cut
  | depth + 1, left => do
    match ← parse depth .disjunction with
    | none => return left
    | some right => concat depth (.binary left right .concat left.position)

def arguments : Nat → Run σ (List Expr)
  | 0 => .cut
  | depth + 1 => do
    match ← parse depth .concatenation with
    | none => return []
    | some first => return first :: (← moreArguments depth)

def moreArguments : Nat → Run σ (List Expr)
  | 0 => .cut
  | depth + 1 => do
    match ← Run.of (take? [.comma]) with
    | none => return []
    | some _ =>
      let next ← required depth .concatenation
      return next :: (← moreArguments depth)

end

end Levels

section Rules

variable {run : Run σ α} {next : α → Run σ β} {parser after : Parser σ}

theorem Run.bind_of_ok {result : α} (ran : run parser = some (.ok result, after)) :
    (run >>= next) parser = next result after := by
  simp only [bind, ExceptT.bind, ExceptT.mk, StateT.bind, ran]
  rfl

theorem Run.bind_of_error {fault : Fault} (ran : run parser = some (.error fault, after)) :
    (run >>= next) parser = some (.error fault, after) := by
  simp only [bind, ExceptT.bind, ExceptT.mk, StateT.bind, ran]
  rfl

end Rules

abbrev tokensLeft (parser : Parser StoredTokens) : Nat :=
  parser.source.remaining.length

/-- With at most `size` tokens left the recursion ends as the action does, which leaves fewer tokens by
`cost` of its result at least. -/
def Settles (size : Nat) (cost : α → Nat) (run : Nat → Run StoredTokens α)
    (action : Parse StoredTokens α) : Prop :=
  ∀ parser, tokensLeft parser ≤ size →
    EndsIn run parser (outcome (action parser)) ∧
      ∀ result after, action parser = .ok result after →
        tokensLeft after + cost result ≤ tokensLeft parser

section Steps

variable {size smaller : Nat} {cost less : α → Nat}

theorem Settles.call {run : Nat → Run StoredTokens α} {action : Parse StoredTokens α}
    (settles : Settles size cost (fun depth => run (depth + 1)) action) :
    Settles size cost run action := by
  intro parser small
  obtain ⟨⟨depth, same⟩, fewer⟩ := settles parser small
  refine ⟨⟨depth + 1, fun deeper enough => ?_⟩, fewer⟩
  obtain _ | deeper := deeper
  · omega
  · exact same deeper (Nat.le_of_succ_le_succ enough)

theorem Settles.of {action : Parse StoredTokens α}
    (taken : ∀ parser result after, action parser = .ok result after →
      tokensLeft after + cost result ≤ tokensLeft parser) :
    Settles size cost (fun _ => Run.of action) action :=
  fun parser _ => ⟨⟨0, fun _ _ => rfl⟩, taken parser⟩

theorem Settles.pure {result : α} (free : cost result = 0) :
    Settles size cost (fun _ => Pure.pure result) (Pure.pure result) := by
  intro parser _
  refine ⟨⟨0, fun _ _ => rfl⟩, fun given after ran => ?_⟩
  cases ran
  exact Nat.le_of_eq (by rw [free, Nat.add_zero])

theorem Settles.bind {run : Nat → Run StoredTokens α} {action : Parse StoredTokens α}
    {next : Nat → α → Run StoredTokens β} {next' : α → Parse StoredTokens β} {total : β → Nat}
    (first : Settles size cost run action)
    (second : ∀ result, cost result ≤ size → Settles (size - cost result)
      (fun final => total final - cost result) (fun depth => next depth result) (next' result)) :
    Settles size total (fun depth => run depth >>= next depth) (action >>= next') := by
  intro parser small
  obtain ⟨⟨depth, same⟩, fewer⟩ := first parser small
  cases ran : action parser with
  | error fault after =>
    rw [ran] at same
    rw [Parser.bind_of_error ran]
    refine ⟨⟨depth, fun deeper enough => ?_⟩, nofun⟩
    exact Run.bind_of_error (same deeper enough)
  | ok result after =>
    have taken := fewer result after ran
    rw [ran] at same
    rw [Parser.bind_of_ok ran]
    obtain ⟨⟨depth', same'⟩, fewer'⟩ := second result (by omega) after (by omega)
    refine ⟨⟨max depth depth', fun deeper enough => ?_⟩, fun final behind ran' => ?_⟩
    · exact (Run.bind_of_ok (same deeper (by omega))).trans (same' deeper (by omega))
    · have : tokensLeft behind + (total final - cost result) ≤ tokensLeft after :=
        fewer' final behind ran'
      omega

theorem Settles.weaken {run : Nat → Run StoredTokens α} {action : Parse StoredTokens α}
    (settles : Settles size cost run action) (fewer : smaller ≤ size)
    (cheaper : ∀ result, less result ≤ cost result) : Settles smaller less run action := by
  intro parser small
  obtain ⟨ends, taken⟩ := settles parser (Nat.le_trans small fewer)
  refine ⟨ends, fun result after ran => ?_⟩
  exact Nat.le_trans (Nat.add_le_add_left (cheaper result) _) (taken result after ran)

theorem accept_cost {accepts : TokenKind → Option α} {parser after : Parser StoredTokens}
    {result : Option (Token × α)} (ran : accept accepts parser = .ok result after) :
    tokensLeft after + present result ≤ tokensLeft parser := by
  obtain ⟨⟨index, tokens, ending⟩, warnings⟩ := parser
  cases tokens with
  | nil =>
    have looked : TokenSource.peek (⟨index, [], ending⟩ : StoredTokens) = .ok none _ := rfl
    rw [accept_of_end looked] at ran
    cases ran
    exact Nat.le_refl _
  | cons token tokens =>
    have looked : TokenSource.peek (⟨index, token :: tokens, ending⟩ : StoredTokens) =
      .ok (some token) _ := rfl
    cases accepted : accepts token.kind with
    | none =>
      rw [accept_of_none looked accepted] at ran
      cases ran
      exact Nat.le_refl _
    | some result =>
      rw [accept_of_some looked accepted] at ran
      cases ran
      exact Nat.le_refl _

theorem take?_cost {kinds : List TokenKind} {parser after : Parser StoredTokens} {result : Option Token}
    (ran : take? kinds parser = .ok result after) :
    tokensLeft after + present result ≤ tokensLeft parser := by
  obtain ⟨taken, between, accepted, rest⟩ := bind_eq_ok ran
  have cost := accept_cost accepted
  cases rest
  cases taken <;> exact cost

theorem Settles.accept (accepts : TokenKind → Option α) :
    Settles size present (fun _ => Run.of (accept accepts)) (accept accepts) :=
  .of fun _ _ _ ran => accept_cost ran

theorem Settles.take? (kinds : List TokenKind) :
    Settles size present (fun _ => Run.of (take? kinds)) (take? kinds) :=
  .of fun _ _ _ ran => take?_cost ran

theorem Settles.take (kinds : List TokenKind) :
    Settles size (fun _ => 1) (fun _ => Run.of (take kinds)) (take kinds) := by
  refine .of fun parser token after ran => ?_
  obtain ⟨taken, between, found, rest⟩ := bind_eq_ok ran
  have cost := take?_cost found
  cases taken with
  | none =>
    obtain ⟨_, _, -, failed⟩ := bind_eq_ok rest
    exact absurd failed fail_ne_ok
  | some taken =>
    cases rest
    exact cost

theorem Settles.warn (message : Text) :
    Settles size (fun _ => 0) (fun _ => Run.of (warn message)) (warn message) := by
  refine .of fun parser result after ran => ?_
  cases ran
  exact Nat.le_refl _

theorem Settles.missing (problem : Option TokenKind → Problem) :
    Settles size cost (fun _ => Run.of (nextKind >>= fun found => fail (problem found)))
      (nextKind >>= fun found => fail (problem found)) := by
  refine .of fun parser result after ran => ?_
  obtain ⟨_, _, -, failed⟩ := bind_eq_ok ran
  exact absurd failed fail_ne_ok

abbrev reads (level : Level) : Nat → Run StoredTokens (Option Expr) :=
  fun depth => parse depth level

theorem literal_settles : Settles size present (reads .literal) Grammar.literal := by
  refine .call ?_
  simp only [reads, parse]
  refine .of fun parser result after ran => ?_
  obtain ⟨taken, between, accepted, rest⟩ := bind_eq_ok ran
  have cost := accept_cost accepted
  cases taken <;> cases rest <;> exact cost

theorem required_settles {level : Level} {action : Parse StoredTokens (Option Expr)}
    (settles : Settles size present (reads level) action) :
    Settles size (fun _ => 1) (fun depth => required depth level) (require action) := by
  refine .call ?_
  simp only [required]
  refine settles.bind ?_
  rintro (_ | expr) _
  · exact .missing _
  · exact .pure rfl

end Steps

section Levels

variable {size bound : Nat} {level : Level} {operand : Parse StoredTokens (Option Expr)}
variable {inner : Nested StoredTokens}

theorem operators_settles (settles : Settles size present (reads level.tighter) operand)
    (enough : size < bound) (first : Expr) :
    Settles size (fun _ => 0) (fun depth => operators depth level first)
      (foldOperators operand level.operators bound first) := by
  -- Each round takes a token, so the loop ends for want of tokens before the bound does.
  induction bound generalizing size first with
  | zero => omega
  | succ bound ih =>
    refine .call ?_
    simp only [operators, foldOperators]
    refine (Settles.accept _).bind ?_
    rintro (_ | ⟨token, operator⟩) taken
    · exact .pure rfl
    · simp only [present] at taken ⊢
      have rest := settles.weaken (Nat.sub_le size 1) fun _ => Nat.le_refl _
      refine (required_settles rest).bind fun second _ => ?_
      exact ih (rest.weaken (Nat.sub_le _ 1) fun _ => Nat.le_refl _) (by omega) _

theorem concat_settles (settles : Settles size present (reads .disjunction) operand)
    (enough : size < bound) (first : Expr) :
    Settles size (fun _ => 0) (fun depth => concat depth first) (foldConcat operand bound first) := by
  induction bound generalizing size first with
  | zero => omega
  | succ bound ih =>
    refine .call ?_
    simp only [concat, foldConcat]
    refine settles.bind ?_
    rintro (_ | second) taken
    · exact .pure rfl
    · simp only [present] at taken ⊢
      exact ih (settles.weaken (Nat.sub_le _ 1) fun _ => Nat.le_refl _) (by omega) _

theorem moreArguments_settles (settles : Settles size present (reads .concatenation) operand)
    (enough : size < bound) :
    Settles size (fun _ => 0) moreArguments (Grammar.moreArguments operand bound) := by
  induction bound generalizing size with
  | zero => omega
  | succ bound ih =>
    refine .call ?_
    simp only [moreArguments, Grammar.moreArguments]
    refine (Settles.take? _).bind ?_
    rintro (_ | comma) taken
    · exact .pure rfl
    · simp only [present] at taken ⊢
      have rest := settles.weaken (Nat.sub_le size 1) fun _ => Nat.le_refl _
      refine (required_settles rest).bind fun next _ => ?_
      have again := ih (rest.weaken (Nat.sub_le _ 1) fun _ => Nat.le_refl _) (by omega)
      exact again.bind fun _ _ => .pure rfl

theorem arguments_settles (settles : Settles size present (reads .concatenation) operand)
    (enough : size < bound) :
    Settles size (fun _ => 0) arguments (Grammar.arguments bound operand) := by
  refine .call ?_
  simp only [arguments]
  refine settles.bind ?_
  rintro (_ | first) _
  · exact .pure rfl
  · have rest := settles.weaken (Nat.sub_le size 1) fun _ => Nat.le_refl _
    exact (moreArguments_settles rest (by omega)).bind fun _ _ => .pure rfl

theorem signed_settles {operator : Operator} {kind : TokenKind}
    (found : level.sign? = some (operator, kind))
    (settles : Settles size present (reads level.tighter) operand) (enough : size < bound) :
    Settles size present (reads level) (prefixLevel operator kind operand bound) := by
  -- A level with a sign calls itself through `signed`, which is one call deeper.
  have shape (depth : Nat) :
      (parse (depth + 1) level : Run StoredTokens _) = signed depth level operator kind := by
    cases level <;> cases found <;> rw [parse]
  induction bound generalizing size with
  | zero => omega
  | succ bound ih =>
    refine .call ?_
    simp only [reads, shape]
    refine .call ?_
    simp only [signed, prefixLevel]
    refine (Settles.take? _).bind ?_
    rintro (_ | token) taken
    · exact settles.weaken (Nat.sub_le _ _) fun _ => Nat.sub_le _ _
    · simp only [present] at taken ⊢
      have rest := settles.weaken (Nat.sub_le size 1) fun _ => Nat.le_refl _
      exact (required_settles (ih rest (by omega))).bind fun _ _ => .pure rfl

theorem joined_settles (operated : level.operators ≠ [])
    (settles : Settles size present (reads level.tighter) operand) (enough : size < bound) :
    Settles size present (reads level) (binaryLevel bound operand level.operators) := by
  have shape (depth : Nat) : (parse (depth + 1) level : Run StoredTokens _) = joined depth level := by
    cases level <;> first | exact absurd rfl operated | rw [parse]
  refine .call ?_
  simp only [reads, shape]
  refine .call ?_
  simp only [joined]
  refine settles.bind ?_
  rintro (_ | first) _
  · exact .pure rfl
  · have rest := settles.weaken (Nat.sub_le size 1) fun _ => Nat.le_refl _
    exact (operators_settles rest (by omega) first).bind fun _ _ => .pure rfl

theorem concatenation_settles
    (settles : Settles size present (reads .disjunction) (disjunction bound inner))
    (enough : size < bound) :
    Settles size present (reads .concatenation) (concatenation bound inner) := by
  refine .call ?_
  simp only [reads, parse]
  refine settles.bind ?_
  rintro (_ | first) _
  · exact .pure rfl
  · have rest := settles.weaken (Nat.sub_le size 1) fun _ => Nat.le_refl _
    exact (concat_settles rest (by omega) first).bind fun _ _ => .pure rfl

theorem reference_settles : Settles size present (reads .reference) Grammar.reference := by
  refine .call ?_
  simp only [reads, parse]
  refine (Settles.take? _).bind ?_
  rintro (_ | token) _
  · exact literal_settles.weaken (Nat.sub_le _ _) fun _ => Nat.sub_le _ _
  · exact .pure rfl

/-- What stands in parentheses is read with fewer tokens left than the parentheses were. -/
def NestedSettles (size : Nat) (inner : Nested StoredTokens) : Prop :=
  0 < size → Settles (size - 1) present (reads .expression) inner.expression ∧
    Settles (size - 1) present (reads .concatenation) inner.argument

theorem paren_settles (nested : NestedSettles size inner) :
    Settles size present (reads .paren) (paren inner) := by
  refine .call ?_
  simp only [reads, parse]
  refine (Settles.take? _).bind ?_
  rintro (_ | token) taken
  · exact reference_settles.weaken (Nat.sub_le _ _) fun _ => Nat.sub_le _ _
  · simp only [present] at taken ⊢
    refine (required_settles (nested taken).1).bind fun expr _ => ?_
    exact (Settles.take _).bind fun _ _ => .pure rfl

theorem call_settles (nested : NestedSettles size inner) (enough : size < bound) :
    Settles size present (reads .call) (call bound inner) := by
  refine .call ?_
  simp only [reads, parse]
  refine (Settles.take? _).bind ?_
  rintro (_ | word) taken
  · exact (paren_settles nested).weaken (Nat.sub_le _ _) fun _ => Nat.sub_le _ _
  · simp only [present] at taken ⊢
    refine (Settles.take? _).bind ?_
    rintro (_ | opening) _
    · exact (Settles.warn _).bind fun _ _ => .pure rfl
    · have argument := (nested taken).2.weaken (Nat.sub_le _ 1) fun _ => Nat.le_refl _
      refine (arguments_settles argument (by omega)).bind fun inside _ => ?_
      exact (Settles.take _).bind fun _ _ => .pure rfl

theorem parseIn_settles (nested : NestedSettles size inner) (enough : size < bound) (level : Level) :
    Settles size present (reads level) (level.parseIn bound inner) := by
  induction level using Level.chain_induction with
  | tightest => exact literal_settles
  | step level ih =>
    cases level with
    | expression | disjunction | conjunction | equality | relational | additive | multiplicative =>
      exact joined_settles (List.cons_ne_nil _ _) ih enough
    | concatenation => exact concatenation_settles ih enough
    | minus | slash | not => exact signed_settles rfl ih enough
    | call => exact call_settles nested enough
    | paren => exact paren_settles nested
    | reference => exact reference_settles
    | literal => exact literal_settles

theorem nested_settles (enough : size ≤ bound) : NestedSettles size (nested bound) := by
  induction bound generalizing size with
  | zero => exact fun some => by omega
  | succ bound ih =>
    intro some
    have deeper : NestedSettles (size - 1) (nested bound) := ih (by omega)
    exact ⟨parseIn_settles deeper (by omega) .expression,
      parseIn_settles deeper (by omega) .concatenation⟩

theorem parseWithin_settles (enough : size < bound) (level : Level) :
    Settles size present (reads level) (level.parseWithin bound) := by
  rw [Level.parseWithin]
  exact parseIn_settles (nested_settles (by omega)) enough level

end Levels

/-- On stored tokens the recursion of a level ends, and it gives what the bounded level gives. -/
theorem parse_ends (level : Level) (parser : Parser StoredTokens) :
    EndsIn (reads level) parser (outcome (level.parse parser)) := by
  have settles := parseWithin_settles (Nat.lt_succ_self (tokensLeft parser)) level
  exact (settles parser (Nat.le_refl _)).1

theorem arguments_ends (parser : Parser StoredTokens) :
    EndsIn arguments parser (outcome (Parser.arguments parser)) := by
  have enough := Nat.lt_succ_self (tokensLeft parser)
  have settles := arguments_settles (parseWithin_settles enough .concatenation) enough
  exact (settles parser (Nat.le_refl _)).1

theorem operators_ends (level : Level) (left : Expr) (parser : Parser StoredTokens) :
    ∃ result, EndsIn (fun depth => operators depth level left) parser result := by
  have enough := Nat.lt_succ_self (tokensLeft parser)
  have settles := operators_settles (parseWithin_settles enough level.tighter) enough left
  exact ⟨_, (settles parser (Nat.le_refl _)).1⟩

theorem concat_ends (left : Expr) (parser : Parser StoredTokens) :
    ∃ result, EndsIn (fun depth => concat depth left) parser result := by
  have enough := Nat.lt_succ_self (tokensLeft parser)
  have settles := concat_settles (parseWithin_settles enough .disjunction) enough left
  exact ⟨_, (settles parser (Nat.le_refl _)).1⟩

theorem moreArguments_ends (parser : Parser StoredTokens) :
    ∃ result, EndsIn moreArguments parser result := by
  have enough := Nat.lt_succ_self (tokensLeft parser)
  have settles := moreArguments_settles (parseWithin_settles enough .concatenation) enough
  exact ⟨_, (settles parser (Nat.le_refl _)).1⟩

end StyleExpr.Unrolled
