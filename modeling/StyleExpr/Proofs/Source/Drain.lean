import StyleExpr.Proofs.Source.Lexing
import StyleExpr.Source.Stored

/-! Draining a source gives its feed: all its tokens, then the place of its end or the fault met there.
For a lexer the place is the one behind the whole text. -/

namespace StyleExpr

namespace TokenSource

variable {σ : Type} [TokenSource σ] {source after : σ} {token : Token} {fault : Fault}

theorem next_of_token (looked : peek source = .ok (some token) after) :
    next source = .ok (some token) (drop after) := by
  simp only [next, bind, EStateM.bind, looked]
  rfl

theorem next_of_end (looked : peek source = .ok none after) : next source = .ok none after := by
  simp only [next, bind, EStateM.bind, looked]
  rfl

theorem next_of_fault (looked : peek source = .error fault after) :
    next source = .error fault after := by
  simp only [next, bind, EStateM.bind, looked]

end TokenSource

/-- The fault at the end of a feed, if it ends in one. -/
def fault? : Except Fault Position → Option Fault
  | .ok _ => none
  | .error fault => some fault

section Source

variable {σ : Type} [TokenSource σ] {source after : σ} {tokens : List Token} {place : Position}
variable {ending : Except Fault Position}

theorem Feeds.collectUpTo_eq {count : Nat} (feeds : Feeds source tokens ending)
    (enough : tokens.length < count) :
    ∃ after, TokenSource.collectUpTo count source = (tokens, fault? ending, after) ∧
      ∀ place, ending = .ok place → TokenSource.ending after = place := by
  induction feeds generalizing count with
  | finish looked =>
    obtain _ | count := count
    · omega
    refine ⟨_, ?_, fun place same => by cases same; rfl⟩
    simp only [TokenSource.collectUpTo, TokenSource.next_of_end looked, fault?]
  | @broken source after fault looked =>
    obtain _ | count := count
    · omega
    refine ⟨after, ?_, fun place same => by cases same⟩
    simp only [TokenSource.collectUpTo, TokenSource.next_of_fault looked, fault?]
  | token looked rest ih =>
    obtain _ | count := count
    · omega
    obtain ⟨after, collected, placed⟩ := ih (Nat.lt_of_succ_lt_succ enough)
    refine ⟨after, ?_, placed⟩
    simp only [TokenSource.collectUpTo, TokenSource.next_of_token looked, collected]

variable [LawfulSource σ]

theorem Feeds.collect_eq (feeds : Feeds source tokens ending) :
    ∃ after, TokenSource.collect source = (tokens, fault? ending, after) ∧
      ∀ place, ending = .ok place → TokenSource.ending after = place :=
  feeds.collectUpTo_eq (Nat.lt_succ_of_le feeds.length_le)

theorem Feeds.drain_eq (feeds : Feeds source tokens (.ok place)) :
    ∃ after, TokenSource.drain source = .ok tokens after ∧ TokenSource.ending after = place := by
  obtain ⟨after, collected, placed⟩ := feeds.collect_eq
  refine ⟨after, ?_, placed place rfl⟩
  simp only [TokenSource.drain, collected, fault?]

theorem feeds_of_drain (drained : TokenSource.drain source = .ok tokens after) :
    Feeds source tokens (.ok (TokenSource.ending after)) := by
  obtain ⟨tokens', ending, feeds⟩ := exists_feeds source
  obtain ⟨after', collected, placed⟩ := feeds.collect_eq
  simp only [TokenSource.drain, collected] at drained
  cases ending with
  | ok place =>
    cases drained
    rwa [placed place rfl]
  | error fault => cases drained

end Source

theorem tokenize_eq_ok_iff {text : Text} {start : Position} {tokens : List Token} :
    tokenize text start = .ok tokens ↔
      ∃ after, TokenSource.drain (Lexer.ofText text start) = .ok tokens after := by
  unfold tokenize
  cases TokenSource.drain (Lexer.ofText text start) <;> simp

instance : LawfulSource StoredTokens where
  peek_again := by
    rintro stored after token looked
    cases looked
    exact rfl
  bound_drop := by
    rintro ⟨index, remaining, ending⟩ after token looked
    cases remaining with
    | nil => cases looked
    | cons head rest =>
      cases looked
      exact Nat.lt_succ_self _

theorem StoredTokens.feeds (index : Nat) (tokens : List Token) (ending : Position) :
    Feeds (⟨index, tokens, ending⟩ : StoredTokens) tokens (.ok ending) := by
  induction tokens generalizing index with
  | nil =>
    have ended : TokenSource.peek (⟨index, [], ending⟩ : StoredTokens) = .ok none _ := rfl
    exact .finish ended
  | cons token rest ih => exact .token rfl (ih (index + 1))

namespace Cursor

variable {cursor after : Cursor} {token : Option Token}

/-- Reading on does not move the end of the text. -/
theorem afterAll_skip (cursor : Cursor) (count : Nat) :
    (cursor.skip count).position.afterAll (cursor.skip count).ahead =
      cursor.position.afterAll cursor.ahead := by
  simp only [skip]
  rw [← Position.afterAll_append, List.take_append_drop]

theorem afterAll_nextToken (found : cursor.nextToken = .ok token after) :
    after.position.afterAll after.ahead = cursor.position.afterAll cursor.ahead := by
  have next := cursor.next_nextToken
  rw [found] at next
  cases next with
  | finish => exact afterAll_skip ..
  | token => rw [afterAll_skip, skipSpace, afterAll_skip]

end Cursor

namespace Lexer

variable {lexer after : Lexer}

theorem afterAll_peek {token : Option Token} (looked : TokenSource.peek lexer = .ok token after) :
    after.cursor.position.afterAll after.cursor.ahead =
      lexer.cursor.position.afterAll lexer.cursor.ahead := by
  rcases peek_cases looked with ⟨head, -, -, rfl⟩ | ⟨cursor, found, rfl⟩
  · rfl
  · exact Cursor.afterAll_nextToken found

end Lexer

theorem Feeds.place_eq {lexer : Lexer} {tokens : List Token} {place : Position}
    (feeds : Feeds lexer tokens (.ok place)) :
    place = lexer.cursor.position.afterAll lexer.cursor.ahead := by
  generalize ended : Except.ok place = ending at feeds
  induction feeds with
  | @finish lexer after looked =>
    cases ended
    have kept := Lexer.afterAll_peek looked
    rw [Lexer.ahead_of_peek_none looked] at kept
    exact kept
  | broken => cases ended
  | token looked rest ih =>
    have kept := Lexer.afterAll_peek looked
    exact (ih ended).trans kept

end StyleExpr
