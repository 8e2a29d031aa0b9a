import StyleExpr.Proofs.Grammar.Alike
import StyleExpr.Source.Stored

/-! Sources that follow a feed: the feed itself, any lawful source, stored tokens with the number of
tokens taken, and a second feed up to the last token that both share. -/

namespace StyleExpr

namespace Pairing

def self : Pairing Feed where
  place := id
  limit := 0
  joined := Eq
  broken := fun fault left => left = ⟨[], .error fault⟩
  look_token := by
    rintro token tokens ending _ rfl
    exact ⟨_, rfl, rfl, fun _ => rfl⟩
  look_end := by
    rintro position _ rfl
    exact ⟨_, rfl, rfl, rfl⟩
  look_fault := by
    rintro fault _ rfl
    exact ⟨_, by rw [Fault.moved_id]; rfl, rfl⟩

def ofLawful (τ : Type) [TokenSource τ] [LawfulSource τ] : Pairing τ where
  place := id
  limit := 0
  joined := fun feed source => Feeds source feed.tokens feed.ending
  broken := fun _ _ => True
  look_token := by
    intro token tokens ending source feeds
    cases feeds with
    | token looked rest => exact ⟨_, looked, .token (LawfulSource.peek_again looked) rest, fun _ => rest⟩
  look_end := by
    intro position source feeds
    cases feeds with
    | finish looked => exact ⟨_, looked, .finish (LawfulSource.peek_again looked), rfl⟩
  look_fault := by
    intro fault source feeds
    cases feeds with
    | broken looked => exact ⟨_, by rw [Fault.moved_id]; exact looked, trivial⟩

/-- Stored tokens follow the feed of those that remain and count the ones taken. -/
def stored (total : Nat) : Pairing StoredTokens where
  place := id
  limit := 0
  joined := fun feed stored =>
    feed = ⟨stored.remaining, .ok stored.ending⟩ ∧ stored.index + stored.remaining.length = total
  broken := fun _ _ => False
  look_token := by
    rintro token tokens ending ⟨index, remaining, place⟩ ⟨same, counted⟩
    obtain ⟨rfl, rfl⟩ := Feed.mk.inj same
    refine ⟨_, rfl, ⟨rfl, counted⟩, fun _ => ⟨rfl, ?_⟩⟩
    simp only [List.length_cons] at counted
    simp only [TokenSource.drop, StoredTokens.dropNext]
    omega
  look_end := by
    rintro position ⟨index, remaining, place⟩ ⟨same, counted⟩
    obtain ⟨rfl, ending⟩ := Feed.mk.inj same
    cases ending
    exact ⟨_, rfl, ⟨rfl, counted⟩, rfl⟩
  look_fault := by
    rintro fault ⟨index, remaining, place⟩ ⟨same, -⟩
    cases (Feed.mk.inj same).2

theorem stored_joined_eq {index : Nat} {front rest : List Token} {ending : Position}
    {source : StoredTokens}
    (joined : (stored (index + (front ++ rest).length)).joined ⟨rest, .ok ending⟩ source) :
    source = ⟨index + front.length, rest, ending⟩ := by
  obtain ⟨taken, remaining, place⟩ := source
  obtain ⟨same, counted⟩ := joined
  cases same
  rw [List.length_append] at counted
  simp only at counted
  rw [show taken = index + front.length by omega]

/-- Two feeds that agree up to a token are alike while that token is not taken. -/
def shared (token : Token) (rest rest' : List Token) (ending ending' : Except Fault Position) :
    Pairing Feed where
  place := id
  limit := rest.length + 1
  joined := fun feed other =>
    ∃ front, feed = ⟨front ++ token :: rest, ending⟩ ∧ other = ⟨front ++ token :: rest', ending'⟩
  broken := fun _ _ => False
  look_token := by
    rintro head tokens end' source ⟨front, same, rfl⟩
    obtain ⟨listed, rfl⟩ := Feed.mk.inj same
    cases front with
    | nil =>
      obtain ⟨rfl, rfl⟩ := List.cons.inj listed
      exact ⟨_, rfl, ⟨[], rfl, rfl⟩, fun kept => absurd kept (Nat.not_succ_le_self _)⟩
    | cons first front =>
      obtain ⟨rfl, rfl⟩ := List.cons.inj listed
      exact ⟨_, rfl, ⟨head :: front, rfl, rfl⟩, fun _ => ⟨front, rfl, rfl⟩⟩
  look_end := by
    rintro position source ⟨front, same, -⟩
    have listed := (Feed.mk.inj same).1
    simp at listed
  look_fault := by
    rintro fault source ⟨front, same, -⟩
    have listed := (Feed.mk.inj same).1
    simp at listed

variable {τ : Type} [TokenSource τ] {pairing : Pairing τ} {α β : Type} {size : Nat}
variable {cost : α → Nat} {image : α → β} {left : Parse Feed α} {right : Parse τ β}
variable {feed : Feed} {source : τ} {warnings : List Text}

theorem Paired.ok {result : α} {after : Parser Feed}
    (paired : pairing.Paired size cost image left right) (small : feed.tokens.length ≤ size)
    (ran : left ⟨feed, warnings⟩ = .ok result after) (joined : pairing.joined feed source)
    (kept : pairing.limit ≤ after.source.tokens.length) :
    ∃ behind, right ⟨source, warnings⟩ = .ok (image result) ⟨behind, after.warnings⟩ ∧
      pairing.joined after.source behind := by
  have step := paired feed warnings small
  rw [ran] at step
  exact step.2 source joined kept

theorem Paired.error {fault : Fault} {after : Parser Feed}
    (paired : pairing.Paired size cost image left right) (small : feed.tokens.length ≤ size)
    (ran : left ⟨feed, warnings⟩ = .error fault after) (joined : pairing.joined feed source)
    (kept : pairing.limit ≤ after.source.tokens.length) :
    ∃ behind,
      right ⟨source, warnings⟩ = .error (fault.moved pairing.place) ⟨behind, after.warnings⟩ ∧
        (pairing.joined after.source behind ∨
          after.source = ⟨[], .error fault⟩ ∧ pairing.broken fault behind) := by
  have step := paired feed warnings small
  rw [ran] at step
  exact step.2 source joined kept

/-- A run on the other source that gave something followed one on the feed that did. -/
theorem Paired.right_ok {result : β} {after : Parser τ} (whole : pairing.limit = 0)
    (paired : pairing.Paired size cost image left right) (small : feed.tokens.length ≤ size)
    (joined : pairing.joined feed source) (ran : right ⟨source, warnings⟩ = .ok result after) :
    ∃ given fed, left ⟨feed, warnings⟩ = .ok given ⟨fed, after.warnings⟩ ∧ image given = result ∧
      fed.tokens.length + cost given ≤ feed.tokens.length ∧ pairing.joined fed after.source := by
  cases run : left ⟨feed, warnings⟩ with
  | ok given fed =>
    have step := paired feed warnings small
    rw [run] at step
    obtain ⟨behind, same, still⟩ := step.2 source joined (whole ▸ Nat.zero_le _)
    rw [same] at ran
    cases ran
    exact ⟨given, fed.source, rfl, rfl, step.1, still⟩
  | error fault fed =>
    obtain ⟨behind, same, -⟩ := paired.error small run joined (whole ▸ Nat.zero_le _)
    rw [same] at ran
    cases ran

/-- Runs that are paired on one feed are the same run. -/
theorem Paired.self_eq {left right : Parse Feed α} {image : α → α}
    (paired : self.Paired size cost image left right) (same : ∀ result, image result = result)
    (small : feed.tokens.length ≤ size) : left ⟨feed, warnings⟩ = right ⟨feed, warnings⟩ := by
  cases ran : left ⟨feed, warnings⟩ with
  | ok result after =>
    obtain ⟨behind, run, joined⟩ := paired.ok small ran rfl (Nat.zero_le _)
    cases joined
    rw [run, same]
  | error fault after =>
    obtain ⟨behind, run, joined⟩ := paired.error small ran rfl (Nat.zero_le _)
    have place : after.source = behind := by
      rcases joined with joined | ⟨left, right⟩
      · exact joined
      · exact left.trans right.symm
    cases place
    rw [run, show self.place = id from rfl, Fault.moved_id]

end Pairing

/-- The bound that a level chooses serves as well as any other that is large enough. -/
theorem Level.parseWithin_feed {bound : Nat} {feed : Feed} (level : Level) (warnings : List Text)
    (enough : feed.tokens.length < bound) :
    level.parseWithin bound ⟨feed, warnings⟩ = level.parse ⟨feed, warnings⟩ :=
  (Pairing.self.parseWithin_alike enough (Nat.lt_succ_self _) level).self_eq
    (fun result => by cases result <;> simp [Pairing.self]) (Nat.le_refl _)

namespace Pairing

variable {τ : Type} [TokenSource τ] {size bound bound' : Nat} {feed : Feed} {source : τ}
variable {warnings : List Text} {after : Parser Feed}

theorem expression_paired (pairing : Pairing τ) (enough : size < bound) (enough' : size < bound') :
    pairing.Paired size (fun _ => 1) (Expr.moved pairing.place)
      (Parser.require (Level.expression.parseWithin bound))
      (Parser.require (Level.expression.parseWithin bound')) :=
  (pairing.parseWithin_alike enough enough' .expression).require

theorem expression_within (enough : feed.tokens.length < bound) :
    Parser.expression ⟨feed, warnings⟩ =
      Parser.require (Level.expression.parseWithin bound) ⟨feed, warnings⟩ :=
  Parser.bind_of_same (Level.parseWithin_feed .expression warnings enough).symm

theorem expression_run :
    Parser.expression ⟨source, warnings⟩ =
      Parser.require (Level.expression.parseWithin (TokenSource.bound source + 1))
        ⟨source, warnings⟩ :=
  Parser.bind_of_same rfl

/-- One pair of parsers serves two feeds, however long each of them is. -/
theorem expression_feeds (pairing : Pairing Feed) (feed other : Feed) (warnings : List Text) :
    ∃ left right, pairing.Paired feed.tokens.length (fun _ => 1) (Expr.moved pairing.place) left right ∧
      Parser.expression ⟨feed, warnings⟩ = left ⟨feed, warnings⟩ ∧
      Parser.expression ⟨other, warnings⟩ = right ⟨other, warnings⟩ := by
  let size := feed.tokens.length + other.tokens.length
  have small : feed.tokens.length < size + 1 := Nat.lt_succ_of_le (Nat.le_add_right _ _)
  have small' : other.tokens.length < size + 1 := Nat.lt_succ_of_le (Nat.le_add_left _ _)
  exact ⟨_, _, pairing.expression_paired small small, expression_within small,
    expression_within small'⟩

theorem expression_ok {expr : Expr} (pairing : Pairing τ) (joined : pairing.joined feed source)
    (bounded : feed.tokens.length ≤ TokenSource.bound source)
    (ran : Parser.expression ⟨feed, warnings⟩ = .ok expr after)
    (kept : pairing.limit ≤ after.source.tokens.length) :
    ∃ behind, Parser.expression ⟨source, warnings⟩ =
        .ok (expr.moved pairing.place) ⟨behind, after.warnings⟩ ∧
      pairing.joined after.source behind := by
  have paired := pairing.expression_paired (Nat.lt_succ_self feed.tokens.length)
    (Nat.lt_succ_of_le bounded)
  rw [expression_run] at ran ⊢
  exact paired.ok (Nat.le_refl _) ran joined kept

theorem expression_error {fault : Fault} (pairing : Pairing τ)
    (joined : pairing.joined feed source)
    (bounded : feed.tokens.length ≤ TokenSource.bound source)
    (ran : Parser.expression ⟨feed, warnings⟩ = .error fault after)
    (kept : pairing.limit ≤ after.source.tokens.length) :
    ∃ behind, Parser.expression ⟨source, warnings⟩ =
        .error (fault.moved pairing.place) ⟨behind, after.warnings⟩ ∧
      (pairing.joined after.source behind ∨
        after.source = ⟨[], .error fault⟩ ∧ pairing.broken fault behind) := by
  have paired := pairing.expression_paired (Nat.lt_succ_self feed.tokens.length)
    (Nat.lt_succ_of_le bounded)
  rw [expression_run] at ran ⊢
  exact paired.error (Nat.le_refl _) ran joined kept

end Pairing

end StyleExpr
