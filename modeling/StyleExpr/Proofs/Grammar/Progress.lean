import StyleExpr.Proofs.Grammar.Account
import StyleExpr.Proofs.Grammar.Unrolled

/-! Progress of the levels on stored tokens. A level takes nothing where no token stands that may begin
one of its phrases, and something elsewhere, and so the grammar needs no bounds. -/

namespace StyleExpr

/-- The kinds of tokens that a phrase of the level may begin with. -/
def Level.firsts : Level → List TokenKind
  | literal => [.string, .number, .color, .bool]
  | reference => [.string, .number, .color, .bool, .reference]
  | paren => [.string, .number, .color, .bool, .reference, .openParen]
  | call => [.string, .number, .color, .bool, .reference, .openParen, .identifier]
  | not => [.string, .number, .color, .bool, .reference, .openParen, .identifier, .not]
  | slash => [.string, .number, .color, .bool, .reference, .openParen, .identifier, .not, .divide]
  | _ => [.string, .number, .color, .bool, .reference, .openParen, .identifier, .not, .divide, .minus]

theorem Level.starts_eq_firsts (level : Level) (kind : TokenKind) :
    level.starts kind = decide (kind ∈ level.firsts) := by
  cases level <;> cases kind <;> rfl

namespace Parser

/-- The parser behind some more tokens, with what was said on the way. -/
def onward (parser : Parser StoredTokens) (front rest : List Token) (said : List Text) :
    Parser StoredTokens :=
  ⟨⟨parser.source.index + front.length, rest, parser.source.ending⟩, parser.warnings ++ said⟩

def Advanced (before after : Parser StoredTokens) : Prop :=
  ∃ taken, taken ≠ [] ∧ before.source.remaining = taken ++ after.source.remaining ∧
    after.source.index = before.source.index + taken.length

variable {α : Type} {cost : α → Nat} {image : α → α} {left : Parse Feed α} {right : Parse StoredTokens α}
variable {parser : Parser StoredTokens}
variable {gives : List Token → List Token → List Text → α → Prop}
variable {fails : List Token → List Token → List Text → Fault → Prop}

/-- What a run on the feed of the remaining tokens did, a run on the stored tokens does. -/
theorem stored_run (paired : (Pairing.stored (parser.source.index + parser.source.remaining.length)).Paired
      parser.source.remaining.length cost image left right)
    (same : ∀ result, image result = result)
    (outcome : Outcome (.ok parser.source.ending) parser.source.remaining parser.warnings gives fails
      (left ⟨⟨parser.source.remaining, .ok parser.source.ending⟩, parser.warnings⟩)) :
    ∃ front rest said, parser.source.remaining = front ++ rest ∧
      ((∃ result, gives front rest said result ∧
          right parser = .ok result (parser.onward front rest said)) ∨
        ∃ fault, fails front rest said fault ∧
          right parser = .error fault (parser.onward front rest said)) := by
  cases ran : left ⟨⟨parser.source.remaining, .ok parser.source.ending⟩, parser.warnings⟩ with
  | ok result after =>
    obtain ⟨source, run, follows⟩ := paired.ok (Nat.le_refl _) ran ⟨rfl, rfl⟩ (Nat.zero_le _)
    rw [ran] at outcome
    cases outcome with
    | @ok front rest said _ split given =>
      rw [split] at follows
      rw [same, Pairing.stored_joined_eq follows] at run
      exact ⟨front, rest, said, split, .inl ⟨result, given, run⟩⟩
  | error fault after =>
    obtain ⟨source, run, follows⟩ := paired.error (Nat.le_refl _) ran ⟨rfl, rfl⟩ (Nat.zero_le _)
    rw [ran] at outcome
    cases outcome with
    | @failed front rest said _ split failure =>
      rcases follows with follows | ⟨-, none⟩
      · rw [split] at follows
        rw [Pairing.stored_joined_eq follows, show (Pairing.stored _).place = id from rfl,
          Fault.moved_id] at run
        exact ⟨front, rest, said, split, .inr ⟨fault, failure, run⟩⟩
      · exact none.elim
    | broken met => cases met

end Parser

theorem Level.parse_stored (level : Level) (parser : Parser StoredTokens) :
    ∃ front rest said, parser.source.remaining = front ++ rest ∧
      ((∃ result, level.Reads front rest said result ∧
          level.parse parser = .ok result (parser.onward front rest said)) ∨
        ∃ fault, level.Fails (.ok parser.source.ending) front rest said fault ∧
          level.parse parser = .error fault (parser.onward front rest said)) := by
  have enough := Nat.lt_succ_self parser.source.remaining.length
  have paired := (Pairing.stored (parser.source.index + parser.source.remaining.length)).parseWithin_alike
    enough enough level
  have outcome : Outcome (.ok parser.source.ending) _ _ _ _ _ :=
    parse_accounts level parser.source.remaining parser.warnings
  rw [← level.parseWithin_feed _ enough] at outcome
  have run : level.parse parser = level.parseWithin (parser.source.remaining.length + 1) parser := rfl
  rw [run]
  refine Parser.stored_run paired ?_ outcome
  intro result
  cases result <;> simp [Pairing.stored]

theorem Parser.onward_nil {parser : Parser StoredTokens} {rest : List Token}
    (split : parser.source.remaining = [] ++ rest) : parser.onward [] rest [] = parser := by
  obtain ⟨⟨index, remaining, ending⟩, warnings⟩ := parser
  cases split
  simp [onward]

theorem Parser.advanced_onward {parser : Parser StoredTokens} {front rest : List Token}
    (split : parser.source.remaining = front ++ rest) (some : front ≠ []) (said : List Text) :
    parser.Advanced (parser.onward front rest said) :=
  ⟨front, some, split, rfl⟩

/-- How a level may end on stored tokens: it takes nothing where it cannot begin, and where it can it
takes something, even if it fails behind that. -/
inductive Level.Steps (level : Level) (parser : Parser StoredTokens) :
    EStateM.Result Fault (Parser StoredTokens) (Option Expr) → Prop where
  | absent (refused : ∀ token ∈ parser.source.remaining.head?, token.kind ∉ level.firsts) :
      Steps level parser (.ok none parser)
  | taken (begun : ∃ token ∈ parser.source.remaining.head?, token.kind ∈ level.firsts)
      (advanced : parser.Advanced after) : Steps level parser (.ok (some expr) after)
  | failed (begun : ∃ token ∈ parser.source.remaining.head?, token.kind ∈ level.firsts)
      (advanced : parser.Advanced after) : Steps level parser (.error fault after)

/-- The front part of a phrase begins as the phrase does. -/
theorem Phrase.begun {level : Level} {opened : Bool} {front more rest : List Token} {expr : Expr}
    (phrase : Phrase level opened (front ++ more) expr) (some : front ≠ []) :
    ∃ token ∈ (front ++ rest).head?, token.kind ∈ level.firsts := by
  obtain ⟨token, tail, same, starts⟩ := phrase.head
  obtain ⟨first, front, rfl⟩ := List.exists_cons_of_ne_nil some
  obtain rfl := (List.cons.inj same).1
  rw [level.starts_eq_firsts, decide_eq_true_eq] at starts
  exact ⟨first, rfl, starts⟩

theorem Level.parse_steps (level : Level) (parser : Parser StoredTokens) :
    level.Steps parser (level.parse parser) := by
  obtain ⟨front, rest, said, split, ⟨result, reads, ran⟩ | ⟨fault, fails, ran⟩⟩ :=
    level.parse_stored parser
  · rw [ran]
    cases result with
    | none =>
      obtain ⟨rfl, rfl, refused⟩ := reads
      rw [Parser.onward_nil split]
      refine .absent fun token next member => ?_
      rw [split] at next
      have absent := refused token next
      rw [level.starts_eq_firsts, decide_eq_false_iff_not] at absent
      exact absent member
    | some expr =>
      obtain ⟨phrase, -⟩ := reads
      have some := phrase.ne_nil
      rw [← List.append_nil front] at phrase
      exact .taken (split ▸ phrase.begun some) (Parser.advanced_onward split some said)
  · obtain ⟨some, viable, -⟩ := fails
    obtain ⟨more, expr, phrase⟩ := viable false
    rw [ran]
    exact .failed (split ▸ phrase.begun some) (Parser.advanced_onward split some said)

namespace Level.Steps

variable {level : Level} {parser after : Parser StoredTokens} {expr : Expr}
variable {result : EStateM.Result Fault (Parser StoredTokens) (Option Expr)}

theorem absent_iff (steps : level.Steps parser result) : (∃ after, result = .ok none after) ↔
    ∀ token ∈ parser.source.remaining.head?, token.kind ∉ level.firsts := by
  cases steps with
  | absent refused => exact ⟨fun _ => refused, fun _ => ⟨_, rfl⟩⟩
  | taken begun | failed begun =>
    obtain ⟨token, next, member⟩ := begun
    exact ⟨nofun, fun refused => absurd member (refused token next)⟩

theorem unmoved (steps : level.Steps parser (.ok none after)) : after = parser := by
  cases steps
  rfl

theorem advanced (steps : level.Steps parser (.ok (some expr) after)) : parser.Advanced after := by
  cases steps with
  | taken _ advanced => exact advanced

end Level.Steps

theorem Parser.arguments_nil {parser after : Parser StoredTokens}
    (ran : arguments parser = .ok [] after) : after = parser := by
  have run : arguments parser = Grammar.arguments (parser.source.remaining.length + 1)
    (Level.concatenation.parseWithin (parser.source.remaining.length + 1)) parser := rfl
  rw [run, Grammar.arguments] at ran
  obtain ⟨first, between, read, rest⟩ := bind_eq_ok ran
  cases first with
  | some first =>
    obtain ⟨others, behind, -, listed⟩ := bind_eq_ok rest
    cases listed
  | none =>
    cases rest
    have steps := Level.concatenation.parse_steps parser
    rw [show Level.concatenation.parse parser = .ok none after from read] at steps
    exact steps.unmoved

/-- A level gives no expression exactly where no token comes next that may begin one, and then it leaves
the parser as it was; every expression it gives has taken tokens. Arguments are absent only where nothing
is taken. So the loops of the grammar end, and its recursion does, without any bound on them. -/
theorem levels_progress :
    (∀ (level : Level) (parser : Parser StoredTokens),
      ((∃ after, level.parse parser = .ok none after) ↔
          ∀ token ∈ parser.source.remaining.head?, token.kind ∉ level.firsts) ∧
        (∀ after, level.parse parser = .ok none after → after = parser) ∧
        ∀ expr after, level.parse parser = .ok (some expr) after → parser.Advanced after) ∧
      (∀ parser after : Parser StoredTokens, Parser.arguments parser = .ok [] after → after = parser) ∧
      ∀ parser : Parser StoredTokens,
        (∀ level, Unrolled.EndsIn (fun depth => Unrolled.parse depth level) parser
          (outcome (level.parse parser))) ∧
        Unrolled.EndsIn Unrolled.arguments parser (outcome (Parser.arguments parser)) ∧
        (∀ level left, ∃ result,
          Unrolled.EndsIn (fun depth => Unrolled.operators depth level left) parser result) ∧
        (∀ left, ∃ result, Unrolled.EndsIn (fun depth => Unrolled.concat depth left) parser result) ∧
        ∃ result, Unrolled.EndsIn Unrolled.moreArguments parser result := by
  refine ⟨fun level parser => ?_, fun _ _ => Parser.arguments_nil, fun parser => ?_⟩
  · have steps := level.parse_steps parser
    exact ⟨steps.absent_iff, fun after ran => (ran ▸ steps).unmoved,
      fun expr after ran => (ran ▸ steps).advanced⟩
  · exact ⟨fun level => Unrolled.parse_ends level parser, Unrolled.arguments_ends parser,
      fun level left => Unrolled.operators_ends level left parser,
      fun left => Unrolled.concat_ends left parser, Unrolled.moreArguments_ends parser⟩

/-- In front of a plus no sum is found and nothing is taken, while a number in front of it is taken. -/
theorem levels_progress_plus :
    let one : Token := ⟨.number, .int 1, ⟨1, 1⟩, none⟩
    let plus : Token := ⟨.plus, .text "+", ⟨1, 2⟩, none⟩
    let before : Parser StoredTokens := ⟨⟨0, [one, plus], ⟨1, 3⟩⟩, []⟩
    let behind : Parser StoredTokens := ⟨⟨1, [plus], ⟨1, 3⟩⟩, []⟩
    Level.additive.parse behind = .ok none behind ∧
      Level.literal.parse before = .ok (some (.literal .number (.int 1) none ⟨1, 1⟩)) behind ∧
      before.Advanced behind := by
  intro one plus before behind
  obtain ⟨absent, same, -⟩ := levels_progress.1 .additive behind
  obtain ⟨after, ran⟩ := absent.mpr (fun token next => by cases next; decide)
  have read : Level.literal.parse before =
    .ok (some (.literal .number (.int 1) none ⟨1, 1⟩)) behind := rfl
  rw [same after ran] at ran
  exact ⟨ran, read, (levels_progress.1 .literal before).2.2 _ _ read⟩

end StyleExpr
