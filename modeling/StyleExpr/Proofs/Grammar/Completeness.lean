import StyleExpr.Proofs.Grammar.Account
import StyleExpr.Proofs.Grammar.Equations

/-! Every phrase is read. A level that stands in front of one of its phrases, with nothing behind it
that goes on with the phrase, takes exactly the tokens of the phrase. -/

namespace StyleExpr

open Grammar StyleExpr.Parser

variable {level : Level} {place : Position} {rest tokens : List Token} {warnings said : List Text}
variable {token : Token} {expr : Expr}

namespace Parser

/-- A parser in front of tokens behind which a text ends. -/
abbrev facing (place : Position) (tokens : List Token) (warnings : List Text) : Parser Feed :=
  ⟨⟨tokens, .ok place⟩, warnings⟩

theorem accept_run {α : Type} {accepts : TokenKind → Option α} {result : α}
    (accepted : accepts token.kind = some result) :
    accept accepts (facing place (token :: rest) warnings) =
      .ok (some (token, result)) (facing place rest warnings) :=
  accept_of_some Feed.peek_token accepted

theorem accept_refused {α : Type} {accepts : TokenKind → Option α}
    (refused : ∀ token ∈ tokens.head?, accepts token.kind = none) :
    accept accepts (facing place tokens warnings) = .ok none (facing place tokens warnings) := by
  cases tokens with
  | nil => exact accept_of_end (Feed.peek_end place)
  | cons token rest => exact accept_of_none Feed.peek_token (refused token rfl)

theorem take?_run {kinds : List TokenKind} (member : token.kind ∈ kinds) :
    take? kinds (facing place (token :: rest) warnings) =
      .ok (some token) (facing place rest warnings) := by
  rw [take?, bind_of_ok (accept_run (if_pos member))]
  rfl

theorem take?_refused {kinds : List TokenKind}
    (refused : ∀ token ∈ tokens.head?, token.kind ∉ kinds) :
    take? kinds (facing place tokens warnings) = .ok none (facing place tokens warnings) := by
  rw [take?, bind_of_ok (accept_refused fun token next => if_neg (refused token next))]
  rfl

theorem take_run {kinds : List TokenKind} (member : token.kind ∈ kinds) :
    take kinds (facing place (token :: rest) warnings) = .ok token (facing place rest warnings) := by
  rw [take, bind_of_ok (take?_run member)]
  rfl

theorem require_run {parse : Parse Feed (Option Expr)} {before after : Parser Feed}
    (ran : parse before = .ok (some expr) after) : require parse before = .ok expr after := by
  rw [require, bind_of_ok ran]
  rfl

end Parser

namespace Level

theorem parse_absent (absent : ∀ token ∈ tokens.head?, level.starts token.kind = false) :
    level.parse (facing place tokens warnings) = .ok none (facing place tokens warnings) := by
  have begins {front rest more : List Token} {opened : Bool} {expr : Expr}
      (split : tokens = front ++ rest) (nonempty : front ≠ [])
      (phrase : Phrase level opened (front ++ more) expr) : False := by
    obtain ⟨token, others, same, starts⟩ := phrase.head
    obtain ⟨first, front, rfl⟩ := List.exists_cons_of_ne_nil nonempty
    obtain ⟨rfl, -⟩ := List.cons.inj same
    rw [absent first (by rw [split]; rfl)] at starts
    cases starts
  have outcome : Outcome (.ok place) tokens warnings level.Reads (level.Fails (.ok place)) _ :=
    parse_accounts level tokens warnings
  revert outcome
  generalize level.parse (facing place tokens warnings) = result
  intro outcome
  cases outcome with
  | @ok front rest said result split given =>
    cases result with
    | none =>
      obtain ⟨rfl, rfl, -⟩ := given
      rw [split, List.append_nil, List.nil_append]
    | some expr =>
      have phrase := given.1
      rw [← List.append_nil front] at phrase
      exact (begins split given.1.ne_nil phrase).elim
  | failed split fails =>
    obtain ⟨nonempty, viable, -⟩ := fails
    obtain ⟨more, expr, phrase⟩ := viable false
    exact (begins split nonempty phrase).elim
  | broken met => cases met

/-- What a level does behind the first part of one of its phrases. -/
def resume (level : Level) (expr : Expr) : Parse Feed (Option Expr) := fun parser =>
  let bound := parser.source.tokens.length + 1
  match level with
  | concatenation => (do return some (← foldConcat disjunction.parse bound expr)) parser
  | _ =>
    (do return some (← foldOperators level.tighter.parse level.operators bound expr)) parser

/-- All levels but one go over operators. The loop is empty where there are none. -/
theorem resume_eq (other : level ≠ concatenation) (parser : Parser Feed) :
    level.resume expr parser =
      (do return some (← foldOperators level.tighter.parse level.operators
        (parser.source.tokens.length + 1) expr) : Parse Feed (Option Expr)) parser := by
  cases level <;> first | rfl | exact absurd rfl other

theorem joins_refused (other : level ≠ concatenation) {kind : TokenKind}
    (ends : level.joins kind = false) :
    (Operator.ofToken? kind).filter (· ∈ level.operators) = none := by
  have absent : (Operator.ofToken? kind).any (· ∈ level.operators) = false := by
    cases level <;> first | exact ends | exact absurd rfl other
  cases written : Operator.ofToken? kind with
  | none => rfl
  | some operator => simpa [written] using absent

theorem resume_stop (stops : level.Stops tokens) :
    level.resume expr (facing place tokens warnings) =
      .ok (some expr) (facing place tokens warnings) := by
  have ends : ∀ token ∈ tokens.head?, level.joins token.kind = false := by
    intro token next
    have ends := stops token next
    rw [continues_eq, Bool.or_eq_false_iff] at ends
    exact ends.1
  by_cases side : level = concatenation
  · subst side
    have stopped : foldConcat disjunction.parse (tokens.length + 1) expr
        (facing place tokens warnings) = .ok expr (facing place tokens warnings) := by
      rw [foldConcat, bind_of_ok (parse_absent ends)]
      rfl
    exact bind_of_ok stopped
  · have stopped : foldOperators level.tighter.parse level.operators (tokens.length + 1) expr
        (facing place tokens warnings) = .ok expr (facing place tokens warnings) := by
      rw [foldOperators, bind_of_ok (accept_refused ?_)]
      · rfl
      · exact fun token next => joins_refused side (ends token next)
    rw [resume_eq side]
    exact bind_of_ok stopped

/-- The bound on the loop does not matter. -/
theorem resume_of_bound {bound : Nat} (other : level ≠ concatenation)
    (enough : tokens.length < bound) :
    (do return some (← foldOperators level.tighter.parse level.operators bound expr) :
        Parse Feed (Option Expr)) (facing place tokens warnings) =
      level.resume expr (facing place tokens warnings) := by
  rw [resume_eq other]
  exact bind_of_same (foldOperators_feed level.operators expr enough (Nat.lt_succ_self _))

theorem resume_concat_of_bound {bound : Nat} (enough : tokens.length < bound) :
    (do return some (← foldConcat disjunction.parse bound expr) :
        Parse Feed (Option Expr)) (facing place tokens warnings) =
      concatenation.resume expr (facing place tokens warnings) :=
  bind_of_same (foldConcat_feed expr enough (Nat.lt_succ_self _))

theorem resume_operator {operator : Operator} {back : List Token} {right : Expr}
    (written : Operator.ofToken? token.kind = some operator) (joins : operator ∈ level.operators)
    (operand : level.tighter.parse (facing place (back ++ rest) warnings) =
      .ok (some right) (facing place rest (warnings ++ said))) :
    level.resume expr (facing place (token :: (back ++ rest)) warnings) =
      level.resume (.binary expr right operator expr.position)
        (facing place rest (warnings ++ said)) := by
  have other : level ≠ concatenation := by
    rintro rfl
    cases joins
  have accepted : (Operator.ofToken? token.kind).filter (· ∈ level.operators) = some operator := by
    simp [written, joins]
  have went : foldOperators level.tighter.parse level.operators
        ((token :: (back ++ rest)).length + 1) expr
        (facing place (token :: (back ++ rest)) warnings) =
      foldOperators level.tighter.parse level.operators (token :: (back ++ rest)).length
        (.binary expr right operator expr.position) (facing place rest (warnings ++ said)) := by
    rw [foldOperators, bind_of_ok (accept_run accepted)]
    exact bind_of_ok (require_run operand)
  rw [resume_eq other, bind_of_same went]
  apply resume_of_bound other
  simp only [List.length_cons, List.length_append]
  omega

theorem resume_concat {back : List Token} {right : Expr} (nonempty : back ≠ [])
    (operand : disjunction.parse (facing place (back ++ rest) warnings) =
      .ok (some right) (facing place rest (warnings ++ said))) :
    concatenation.resume expr (facing place (back ++ rest) warnings) =
      concatenation.resume (.binary expr right .concat expr.position)
        (facing place rest (warnings ++ said)) := by
  have went : foldConcat disjunction.parse ((back ++ rest).length + 1) expr
        (facing place (back ++ rest) warnings) =
      foldConcat disjunction.parse (back ++ rest).length
        (.binary expr right .concat expr.position) (facing place rest (warnings ++ said)) := by
    rw [foldConcat, bind_of_ok operand]
  have taken := List.length_pos_iff.mpr nonempty
  refine (bind_of_same went).trans (resume_concat_of_bound ?_)
  simp only [List.length_append]
  omega

/-- A level in front of the tokens of a phrase comes to be behind the phrase. -/
def Resumes (level : Level) (opened : Bool) (tokens : List Token) (expr : Expr) : Prop :=
  ∀ rest place warnings, opens rest = opened → level.tighter.Stops rest →
    level.parse (facing place (tokens ++ rest) warnings) =
      level.resume expr (facing place rest (warnings ++ bareWords tokens rest))

theorem Resumes.completes (resumes : level.Resumes (opens rest) tokens expr)
    (stops : level.Stops rest) :
    level.parse (facing place (tokens ++ rest) warnings) =
      .ok (some expr) (facing place rest (warnings ++ bareWords tokens rest)) := by
  rw [resumes rest place warnings rfl stops.tighter, resume_stop stops]

/-- A first token of a level's own is none of the tighter level. -/
theorem leads_of_tighter_starts (proper : level ≠ literal) {kind : TokenKind}
    (starts : level.tighter.starts kind = true) : level.leads kind = false := by
  cases level <;> cases kind <;> first | rfl | exact absurd rfl proper | cases starts

theorem Stops.of_alone (alone : ∀ kind, level.joins kind = false)
    (stops : level.tighter.Stops tokens) : level.Stops tokens := by
  intro token next
  rw [continues_eq, alone, stops token next, Bool.or_self]

/-- A level without a loop, on tokens that it leaves to the tighter level. -/
theorem Resumes.alone {opened : Bool} (resumes : level.tighter.Resumes opened tokens expr)
    (alone : ∀ kind, level.joins kind = false)
    (left : ∀ rest place warnings, level.parse (facing place (tokens ++ rest) warnings) =
      level.tighter.parse (facing place (tokens ++ rest) warnings)) :
    level.Resumes opened tokens expr := by
  rintro rest place warnings rfl stops
  rw [left, resume_stop (stops.of_alone alone)]
  exact resumes.completes stops

theorem Resumes.operators {opened : Bool} (resumes : level.tighter.Resumes opened tokens expr)
    (joined : level.operators ≠ []) : level.Resumes opened tokens expr := by
  rintro rest place warnings rfl stops
  have other : level ≠ concatenation := by
    rintro rfl
    exact joined rfl
  rw [parse_operators joined, binaryLevel, bind_of_ok (resumes.completes stops)]
  apply resume_of_bound other
  simp only [List.length_append]
  omega

theorem Resumes.side {opened : Bool} (resumes : disjunction.Resumes opened tokens expr) :
    concatenation.Resumes opened tokens expr := by
  rintro rest place warnings rfl stops
  rw [parse_concatenation, bind_of_ok (resumes.completes stops)]
  apply resume_concat_of_bound
  simp only [List.length_append]
  omega

/-- Tokens that begin with none of a level's own are left to the tighter level. -/
theorem parse_eq_tighter (single : level.operators = [] ∧ level ≠ concatenation)
    (refused : ∀ token ∈ tokens.head?, level.leads token.kind = false) :
    level.parse (facing place tokens warnings) =
      level.tighter.parse (facing place tokens warnings) := by
  have untaken {kind : TokenKind} (own : level.leads kind = true) :
      ∀ token ∈ tokens.head?, token.kind ∉ [kind] := by
    intro token next member
    rw [← List.mem_singleton.mp member, refused token next] at own
    cases own
  cases level with
  | minus | slash | not =>
    rw [parse_sign_again rfl, bind_of_ok (take?_refused (untaken rfl))]
  | call =>
    rw [parse_call, Grammar.call, bind_of_ok (take?_refused (untaken rfl))]
    exact parse_paren.symm
  | paren =>
    rw [parse_paren, Grammar.paren, bind_of_ok (take?_refused (untaken rfl))]
    rfl
  | reference => exact bind_of_ok (take?_refused (untaken rfl))
  | literal => rfl
  | concatenation => exact absurd rfl single.2
  | _ => exact absurd single.1 (by decide)

theorem joins_of_single (single : level.operators = [] ∧ level ≠ concatenation)
    (kind : TokenKind) : level.joins kind = false := by
  cases level <;> first
    | exact absurd rfl single.2
    | exact absurd single.1 (by decide)
    | cases kind <;> rfl

theorem Resumes.operand {opened : Bool} (phrase : Phrase level.tighter opened tokens expr)
    (resumes : level.tighter.Resumes opened tokens expr) : level.Resumes opened tokens expr := by
  by_cases tightest : level = literal
  · subst tightest
    exact resumes
  by_cases side : level = concatenation
  · subst side
    exact resumes.side
  by_cases joined : level.operators = []
  · obtain ⟨head, tail, rfl, starts⟩ := phrase.head
    refine resumes.alone (joins_of_single ⟨joined, side⟩) ?_
    intro rest place warnings
    apply parse_eq_tighter ⟨joined, side⟩
    rintro token ⟨⟩
    exact leads_of_tighter_starts tightest starts
  · exact resumes.operators joined

end Level

def Delimited (tokens : List Token) : Prop :=
  ∀ token ∈ tokens.head?, token.kind = .comma ∨ token.kind = .closeParen

theorem Delimited.opens (delimited : Delimited tokens) : opens tokens = false := by
  cases tokens with
  | nil => rfl
  | cons token rest =>
    rw [opens_cons, decide_eq_false_iff_not]
    rcases delimited token rfl with kind | kind <;> simp [kind]

theorem Delimited.stops (delimited : Delimited tokens) : Level.concatenation.Stops tokens := by
  intro token next
  rcases delimited token next with kind | kind <;> rw [kind] <;> rfl

theorem moreArguments_run {first inside : List Token} {parts : List (List Token × Expr)}
    {closer : Token} (separated : Separated (first :: parts.map Prod.fst) inside)
    (each : ∀ part ∈ parts, Level.concatenation.Resumes false part.1 part.2)
    (closing : closer.kind = .closeParen) :
    ∃ more, inside = first ++ more ∧
      Delimited (more ++ closer :: rest) ∧
      ∀ bound warnings, more.length < bound →
        moreArguments Level.concatenation.parse bound (facing place (more ++ closer :: rest) warnings) =
          .ok (parts.map Prod.snd)
            (facing place (closer :: rest) (warnings ++ bareWords more (closer :: rest))) := by
  induction parts generalizing first inside with
  | nil =>
    cases separated
    refine ⟨[], (List.append_nil _).symm, by simpa [Delimited] using .inr closing, ?_⟩
    intro bound warnings enough
    obtain _ | bound := bound
    · cases enough
    have refused : ∀ token ∈ (closer :: rest).head?, token.kind ∉ [TokenKind.comma] := by
      simp [closing]
    simp only [List.nil_append, bareWords, List.append_nil]
    rw [moreArguments, bind_of_ok (take?_refused refused)]
    rfl
  | cons part parts ih =>
    cases separated with
    | @more _ _ tokens _ comma kind others =>
      have each' : ∀ part ∈ parts, Level.concatenation.Resumes false part.1 part.2 :=
        fun other member => each other (List.mem_cons_of_mem _ member)
      obtain ⟨more, rfl, delimited, runs⟩ := ih others each'
      have word : comma.kind ≠ .identifier := by simp [kind]
      refine ⟨comma :: (part.1 ++ more), rfl, by simpa [Delimited] using .inl kind, ?_⟩
      intro bound warnings enough
      obtain _ | bound := bound
      · cases enough
      have resumes := each part (List.mem_cons_self ..)
      rw [← delimited.opens] at resumes
      have argument (warnings : List Text) : Level.concatenation.parse (facing place _ warnings) =
          .ok (some part.2) (facing place (more ++ closer :: rest) _) :=
        resumes.completes delimited.stops
      have shorter : more.length < bound := by
        simp at enough
        omega
      rw [moreArguments, List.cons_append, List.append_assoc,
        bind_of_ok (take?_run (List.mem_singleton.mpr kind))]
      refine (bind_of_ok (require_run (argument _))).trans ?_
      rw [bind_of_ok (runs bound _ shorter), bareWords_cons_other word, bareWords_append,
        List.append_assoc]
      rfl

theorem arguments_run {inside : List Token} {parts : List (List Token × Expr)} {closer : Token}
    {bound : Nat} (separated : Separated (parts.map Prod.fst) inside)
    (each : ∀ part ∈ parts, Level.concatenation.Resumes false part.1 part.2)
    (closing : closer.kind = .closeParen) (enough : inside.length < bound) :
    Grammar.arguments bound Level.concatenation.parse
        (facing place (inside ++ closer :: rest) warnings) =
      .ok (parts.map Prod.snd)
        (facing place (closer :: rest) (warnings ++ bareWords inside (closer :: rest))) := by
  cases parts with
  | nil =>
    cases separated
    have absent : ∀ token ∈ (closer :: rest).head?,
        Level.concatenation.starts token.kind = false := by
      rintro token ⟨⟩
      rw [closing]
      rfl
    simp only [List.nil_append, bareWords, List.append_nil]
    rw [Grammar.arguments, bind_of_ok (Level.parse_absent absent)]
    rfl
  | cons part parts =>
    have each' : ∀ part ∈ parts, Level.concatenation.Resumes false part.1 part.2 :=
      fun other member => each other (List.mem_cons_of_mem _ member)
    obtain ⟨more, rfl, delimited, runs⟩ := moreArguments_run separated each' closing
    have resumes := each part (List.mem_cons_self ..)
    rw [← delimited.opens] at resumes
    have shorter : more.length < bound := by
      simp at enough
      omega
    rw [Grammar.arguments, List.append_assoc, bind_of_ok (resumes.completes delimited.stops),
      bareWords_append, ← List.append_assoc]
    exact bind_of_ok (runs bound _ shorter)

namespace Level.Resumes

variable {opened : Bool}

/-- Behind what nothing goes on with, there is nothing to resume. -/
theorem of_run (whole : level ∈ [.call, .paren, .reference, .literal])
    (ran : ∀ rest place warnings, opens rest = opened →
      level.parse (facing place (tokens ++ rest) warnings) =
        .ok (some expr) (facing place rest (warnings ++ bareWords tokens rest))) :
    level.Resumes opened tokens expr := by
  intro rest place warnings follows _
  rw [ran rest place warnings follows, resume_stop (.of_whole whole)]

theorem word (kind : token.kind = .identifier) :
    Level.call.Resumes false [token] (.literal .string token.value none token.position) := by
  refine of_run (by decide) ?_
  intro rest place warnings unopened
  have refused : ∀ token ∈ rest.head?, token.kind ∉ [TokenKind.openParen] := by
    intro token next
    cases rest with
    | nil => cases next
    | cons first rest =>
      cases next
      simpa using unopened
  rw [List.cons_append, List.nil_append, parse_call, Grammar.call,
    bind_of_ok (take?_run (List.mem_singleton.mpr kind))]
  refine (bind_of_ok (take?_refused refused)).trans ?_
  simp [bareWords, kind, unopened]
  rfl

theorem call {word opener closer : Token} {inside : List Token}
    {parts : List (List Token × Expr)} (kind : word.kind = .identifier)
    (opening : opener.kind = .openParen) (closing : closer.kind = .closeParen)
    (separated : Separated (parts.map Prod.fst) inside)
    (each : ∀ part ∈ parts, Level.concatenation.Resumes false part.1 part.2) :
    Level.call.Resumes opened (word :: opener :: (inside ++ [closer]))
      (.call word.value (parts.map Prod.snd) word.position) := by
  refine of_run (by decide) ?_
  intro rest place warnings _
  rw [parse_call, Grammar.call, List.cons_append, List.cons_append, List.append_assoc,
    bind_of_ok (take?_run (List.mem_singleton.mpr kind))]
  refine (bind_of_ok (take?_run (List.mem_singleton.mpr opening))).trans ?_
  refine (bind_of_ok (arguments_run separated each closing ?_)).trans ?_
  · simp only [List.length_cons, List.length_append]
    omega
  rw [bind_of_ok (take_run (List.mem_singleton.mpr closing)), bareWords_call opening,
    bareWords_append]
  simp [bareWords, closing]

theorem paren {opener closer : Token} {inside : List Token} (opening : opener.kind = .openParen)
    (closing : closer.kind = .closeParen) (resumes : Level.expression.Resumes false inside expr) :
    Level.paren.Resumes opened (opener :: (inside ++ [closer])) expr := by
  refine of_run (by decide) ?_
  intro rest place warnings _
  have ends : Level.expression.Stops (closer :: rest) := by
    rintro token ⟨⟩
    rw [closing]
    rfl
  have closed : opens (closer :: rest) = false := by simp [closing]
  have word : opener.kind ≠ .identifier := by simp [opening]
  rw [← closed] at resumes
  rw [parse_paren, Grammar.paren, List.cons_append, List.append_assoc,
    bind_of_ok (take?_run (List.mem_singleton.mpr opening))]
  refine (bind_of_ok (require_run (resumes.completes ends))).trans ?_
  refine (bind_of_ok (take_run (List.mem_singleton.mpr closing))).trans ?_
  rw [bareWords_cons_other word, bareWords_append]
  simp [bareWords, closing]

theorem reference (kind : token.kind = .reference) :
    Level.reference.Resumes opened [token] (.reference token.value token.position) := by
  refine of_run (by decide) ?_
  intro rest place warnings _
  rw [bareWords_other (by simp [kind]), List.append_nil]
  exact bind_of_ok (take?_run (List.mem_singleton.mpr kind))

theorem literal {literal : LiteralKind} (found : LiteralKind.ofToken? token.kind = some literal) :
    Level.literal.Resumes opened [token]
      (.literal literal token.value token.unit token.position) := by
  have word : token.kind ≠ .identifier := by
    intro kind
    simp [kind, LiteralKind.ofToken?] at found
  refine of_run (by decide) ?_
  intro rest place warnings _
  rw [bareWords_other word, List.append_nil]
  exact bind_of_ok (accept_run found)

end Level.Resumes

theorem Phrase.resumes {opened : Bool} (phrase : Phrase level opened tokens expr) :
    level.Resumes opened tokens expr := by
  induction phrase with
  | operand inner ih => exact ih.operand inner
  | @binary level front left operator opened back right token before written joins behind
      before_ih behind_ih =>
    rintro rest place warnings rfl stops
    obtain ⟨word, unopened⟩ := Level.plain_of_operator written
    have closed : opens (token :: (back ++ rest)) = false := by
      rw [opens_cons, decide_eq_false_iff_not]
      exact unopened
    have ends : level.tighter.Stops (token :: (back ++ rest)) := by
      rintro token ⟨⟩
      exact Level.tighter_continues_of_operator written joins
    rw [List.append_assoc, List.cons_append, before_ih _ place warnings closed ends,
      Level.resume_operator written joins (behind_ih.completes stops), bareWords_append,
      bareWords_cons_other word, List.append_assoc, List.cons_append]
  | @concat back front left opened right before behind unsigned before_ih behind_ih =>
    rintro rest place warnings rfl stops
    obtain ⟨head, tail, rfl, starts⟩ := behind.head
    have ends : Level.disjunction.Stops (head :: tail ++ rest) := by
      rintro token ⟨⟩
      exact Level.disjunction_continues_of_starts starts (unsigned head rfl)
    rw [List.append_assoc, before_ih (head :: tail ++ rest) place warnings rfl ends,
      Level.resume_concat behind.ne_nil (behind_ih.completes stops), bareWords_append,
      List.append_assoc]
  | @sign operator level opened tokens expr token found inner ih =>
    rintro rest place warnings rfl stops
    have stops' := stops.of_alone (Level.joins_sign found)
    rw [List.cons_append, Level.parse_sign_again found,
      bind_of_ok (take?_run (List.mem_singleton_self _)), Level.resume_stop stops',
      bareWords_cons_other (Level.plain_of_sign found)]
    exact bind_of_ok (require_run (ih.completes stops'))
  | word kind => exact .word kind
  | call kind opening closing parts separated each ih => exact .call kind opening closing separated ih
  | paren opening closing inner ih => exact .paren opening closing ih
  | reference kind => exact .reference kind
  | literal found => exact .literal found

theorem expression_completes (phrase : Phrase .expression false tokens expr)
    (stops : Level.expression.Stops rest) :
    Parser.expression (facing place (tokens ++ rest) warnings) =
      .ok expr (facing place rest (warnings ++ bareWords tokens rest)) := by
  rw [← stops.not_opens] at phrase
  exact require_run (phrase.resumes.completes stops)

end StyleExpr
