import StyleExpr.Proofs.Expr.Moved
import StyleExpr.Proofs.Grammar.Steps

/-! Two runs of one parser side by side: on a feed, and on another source that shows the same tokens,
at other places perhaps. The rules below say how steps that are paired are put together. -/

namespace StyleExpr

open TokenSource

/-- How a source follows a feed. The two need not agree any more when fewer than `limit` tokens of
the feed are left. -/
structure Pairing (τ : Type) [TokenSource τ] where
  /-- Where a place of the feed lies in the other source. -/
  place : Position → Position
  limit : Nat
  joined : Feed → τ → Prop
  /-- How the source may be left by the fault at the end of the feed. -/
  broken : Fault → τ → Prop
  look_token : ∀ {token tokens ending source}, joined ⟨token :: tokens, ending⟩ source →
    ∃ after, peek source = .ok (some (token.moved place)) after ∧
      joined ⟨token :: tokens, ending⟩ after ∧
      (limit ≤ tokens.length → joined ⟨tokens, ending⟩ (drop after))
  look_end : ∀ {position source}, joined ⟨[], .ok position⟩ source →
    ∃ after, peek source = .ok none after ∧ joined ⟨[], .ok position⟩ after ∧
      TokenSource.ending after = place position
  look_fault : ∀ {fault source}, joined ⟨[], .error fault⟩ source →
    ∃ after, peek source = .error (fault.moved place) after ∧ broken fault after

namespace Pairing

variable {τ : Type} [TokenSource τ] (pairing : Pairing τ) {α β γ δ : Type}

/-- Both runs give the same, with the warnings of both the same. `image` takes a result on the feed
to the other one, and the tokens of the feed become fewer by `cost` of the result at least. Only
feeds of at most `size` tokens are spoken of. -/
def Paired (size : Nat) (cost : α → Nat) (image : α → β) (left : Parse Feed α)
    (right : Parse τ β) : Prop :=
  ∀ feed warnings, feed.tokens.length ≤ size →
    match left ⟨feed, warnings⟩ with
    | .ok result after =>
      after.source.tokens.length + cost result ≤ feed.tokens.length ∧
        ∀ source, pairing.joined feed source → pairing.limit ≤ after.source.tokens.length →
          ∃ behind, right ⟨source, warnings⟩ = .ok (image result) ⟨behind, after.warnings⟩ ∧
            pairing.joined after.source behind
    | .error fault after =>
      after.source.tokens.length ≤ feed.tokens.length ∧
        ∀ source, pairing.joined feed source → pairing.limit ≤ after.source.tokens.length →
          ∃ behind,
            right ⟨source, warnings⟩ = .error (fault.moved pairing.place) ⟨behind, after.warnings⟩ ∧
              (pairing.joined after.source behind ∨
                after.source = ⟨[], .error fault⟩ ∧ pairing.broken fault behind)

/-- What a step costs that takes a token when it gives something. -/
def present : Option α → Nat
  | some _ => 1
  | none => 0

variable {pairing} {size : Nat} {cost : α → Nat} {image : α → β}

theorem Paired.pure {result : α} (free : cost result = 0) :
    pairing.Paired size cost image (pure result) (pure (image result)) := by
  intro feed warnings _
  refine ⟨by simp [free], ?_⟩
  intro source joined _
  exact ⟨source, rfl, joined⟩

theorem Paired.bind {left : Parse Feed α} {right : Parse τ β} {next : α → Parse Feed γ}
    {next' : β → Parse τ δ} {total : γ → Nat} {image' : γ → δ}
    (first : pairing.Paired size cost image left right)
    (second : ∀ result, cost result ≤ size → pairing.Paired (size - cost result)
      (fun final => total final - cost result) image' (next result) (next' (image result))) :
    pairing.Paired size total image' (left >>= next) (right >>= next') := by
  intro feed warnings small
  have step := first feed warnings small
  cases ran : left ⟨feed, warnings⟩ with
  | error fault after =>
    rw [ran] at step
    rw [Parser.bind_of_error ran]
    refine ⟨step.1, ?_⟩
    intro source joined kept
    obtain ⟨behind, same, still⟩ := step.2 source joined kept
    exact ⟨behind, Parser.bind_of_error same, still⟩
  | ok result after =>
    obtain ⟨between, warned⟩ := after
    rw [ran] at step
    obtain ⟨fewer, follow⟩ := step
    simp only at fewer
    have step' := second result (by omega) between warned (by omega)
    rw [Parser.bind_of_ok ran]
    cases ran' : next result ⟨between, warned⟩ with
    | ok final after' =>
      rw [ran'] at step'
      obtain ⟨fewer', follow'⟩ := step'
      simp only at fewer'
      refine ⟨by omega, ?_⟩
      intro source joined kept
      obtain ⟨behind, same, still⟩ := follow source joined (by simp only; omega)
      rw [Parser.bind_of_ok same]
      exact follow' behind still kept
    | error fault after' =>
      rw [ran'] at step'
      obtain ⟨fewer', follow'⟩ := step'
      refine ⟨by omega, ?_⟩
      intro source joined kept
      obtain ⟨behind, same, still⟩ := follow source joined (by simp only; omega)
      rw [Parser.bind_of_ok same]
      exact follow' behind still kept

theorem Paired.weaken {less : α → Nat} {smaller : Nat} {left : Parse Feed α} {right : Parse τ β}
    (paired : pairing.Paired size cost image left right) (fewer : smaller ≤ size)
    (cheaper : ∀ result, less result ≤ cost result) :
    pairing.Paired smaller less image left right := by
  intro feed warnings small
  have step := paired feed warnings (by omega)
  cases ran : left ⟨feed, warnings⟩ with
  | ok result after =>
    rw [ran] at step
    have := cheaper result
    exact ⟨by have := step.1; omega, step.2⟩
  | error fault after =>
    rw [ran] at step
    exact step

theorem Paired.warn (message : Text) :
    pairing.Paired size (fun _ => 0) id (Parser.warn message) (Parser.warn message) := by
  intro feed warnings _
  exact ⟨Nat.le_refl _, fun source joined _ => ⟨source, rfl, joined⟩⟩

theorem Paired.accept (accepts : TokenKind → Option α) :
    pairing.Paired size present (Option.map (Prod.map (Token.moved pairing.place) id))
      (Parser.accept accepts) (Parser.accept accepts) := by
  rintro ⟨tokens, ending⟩ warnings _
  cases tokens with
  | cons token tokens =>
    cases accepted : accepts token.kind with
    | none =>
      rw [Parser.accept_of_none Feed.peek_token accepted]
      refine ⟨Nat.le_refl _, ?_⟩
      intro source joined _
      obtain ⟨after, looked, still, -⟩ := pairing.look_token joined
      exact ⟨after, Parser.accept_of_none looked accepted, still⟩
    | some result =>
      rw [Parser.accept_of_some Feed.peek_token accepted]
      refine ⟨Nat.le_refl _, ?_⟩
      intro source joined kept
      obtain ⟨after, looked, -, taken⟩ := pairing.look_token joined
      exact ⟨_, Parser.accept_of_some looked accepted, taken kept⟩
  | nil =>
    cases ending with
    | ok place =>
      rw [Parser.accept_of_end (Feed.peek_end place)]
      refine ⟨Nat.le_refl _, ?_⟩
      intro source joined _
      obtain ⟨after, looked, still, -⟩ := pairing.look_end joined
      exact ⟨after, Parser.accept_of_end looked, still⟩
    | error fault =>
      rw [Parser.accept_of_fault (Feed.peek_fault fault)]
      refine ⟨Nat.le_refl _, ?_⟩
      intro source joined _
      obtain ⟨after, looked, left⟩ := pairing.look_fault joined
      exact ⟨after, Parser.accept_of_fault looked, .inr ⟨rfl, left⟩⟩

theorem Paired.peek :
    pairing.Paired size (fun _ => 0) (Option.map (Token.moved pairing.place)) Parser.peek
      Parser.peek := by
  rintro ⟨tokens, ending⟩ warnings _
  cases tokens with
  | cons token tokens =>
    rw [Parser.peek_of_ok Feed.peek_token]
    refine ⟨Nat.le_refl _, ?_⟩
    intro source joined _
    obtain ⟨after, looked, still, -⟩ := pairing.look_token joined
    exact ⟨after, Parser.peek_of_ok looked, still⟩
  | nil =>
    cases ending with
    | ok place =>
      rw [Parser.peek_of_ok (Feed.peek_end place)]
      refine ⟨Nat.le_refl _, ?_⟩
      intro source joined _
      obtain ⟨after, looked, still, -⟩ := pairing.look_end joined
      exact ⟨after, Parser.peek_of_ok looked, still⟩
    | error fault =>
      rw [Parser.peek_of_fault (Feed.peek_fault fault)]
      refine ⟨Nat.le_refl _, ?_⟩
      intro source joined _
      obtain ⟨after, looked, left⟩ := pairing.look_fault joined
      exact ⟨after, Parser.peek_of_fault looked, .inr ⟨rfl, left⟩⟩

theorem Paired.nextKind :
    pairing.Paired size (fun _ => 0) id Parser.nextKind Parser.nextKind := by
  refine Paired.peek.bind ?_
  rintro (_ | token) _
  · exact .pure rfl
  · exact .pure rfl

theorem Paired.position :
    pairing.Paired size (fun _ => 0) pairing.place (Parser.onSource TokenSource.position)
      (Parser.onSource TokenSource.position) := by
  rintro ⟨tokens, ending⟩ warnings _
  cases tokens with
  | cons token tokens =>
    rw [Parser.onSource_of_ok (position_of_token Feed.peek_token)]
    refine ⟨Nat.le_refl _, ?_⟩
    intro source joined _
    obtain ⟨after, looked, still, -⟩ := pairing.look_token joined
    exact ⟨after, Parser.onSource_of_ok (position_of_token looked), still⟩
  | nil =>
    cases ending with
    | ok place =>
      rw [Parser.onSource_of_ok (position_of_end (Feed.peek_end place))]
      refine ⟨Nat.le_refl _, ?_⟩
      intro source joined _
      obtain ⟨after, looked, still, same⟩ := pairing.look_end joined
      exact ⟨after, by rw [Parser.onSource_of_ok (position_of_end looked), same]; rfl, still⟩
    | error fault =>
      rw [Parser.onSource_of_error (position_of_fault (Feed.peek_fault fault))]
      refine ⟨Nat.le_refl _, ?_⟩
      intro source joined _
      obtain ⟨after, looked, left⟩ := pairing.look_fault joined
      exact ⟨after, Parser.onSource_of_error (position_of_fault looked), .inr ⟨rfl, left⟩⟩

theorem Paired.throw (fault : Fault) :
    pairing.Paired size cost image (throw fault) (throw (fault.moved pairing.place)) := by
  intro feed warnings _
  exact ⟨Nat.le_refl _, fun source joined _ => ⟨source, rfl, .inl joined⟩⟩

theorem Paired.fail (problem : Problem) :
    pairing.Paired size cost image (Parser.fail problem) (Parser.fail problem) :=
  Paired.position.bind fun place _ => .throw (.malformed problem place)

theorem Paired.take? (kinds : List TokenKind) :
    pairing.Paired size present (Option.map (Token.moved pairing.place)) (Parser.take? kinds)
      (Parser.take? kinds) := by
  refine (Paired.accept _).bind ?_
  rintro (_ | ⟨token, _⟩) _
  · exact .pure rfl
  · exact .pure rfl

theorem Paired.take (kinds : List TokenKind) :
    pairing.Paired size (fun _ => 1) (Token.moved pairing.place) (Parser.take kinds)
      (Parser.take kinds) := by
  refine (Paired.take? kinds).bind ?_
  rintro (_ | token) _
  · exact Paired.nextKind.bind fun found _ => .fail _
  · exact .pure rfl

/-- Both runs read the same expression, or none, and an expression takes a token at least. -/
abbrev Alike (pairing : Pairing τ) (size : Nat) (left : Parse Feed (Option Expr))
    (right : Parse τ (Option Expr)) : Prop :=
  pairing.Paired size present (Option.map (Expr.moved pairing.place)) left right

theorem Alike.require {left : Parse Feed (Option Expr)} {right : Parse τ (Option Expr)}
    (alike : pairing.Alike size left right) :
    pairing.Paired size (fun _ => 1) (Expr.moved pairing.place) (Parser.require left)
      (Parser.require right) := by
  refine alike.bind ?_
  rintro (_ | expr) _
  · exact Paired.nextKind.bind fun found _ => .fail _
  · exact .pure rfl

end Pairing

end StyleExpr
