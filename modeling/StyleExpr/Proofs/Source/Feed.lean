import StyleExpr.Source.Basic

/-! Feeds: token sources with nothing hidden. Every source that keeps the laws of looking gives the
tokens of exactly one feed, so what is proved of feeds holds of lexers and stored tokens alike. -/

namespace StyleExpr

/-- The tokens to come, then the place of the end or the fault that is met there. -/
structure Feed where
  tokens : List Token
  ending : Except Fault Position

namespace Feed

def peek : EStateM Fault Feed (Option Token) := fun feed =>
  match feed.tokens, feed.ending with
  | token :: _, _ => .ok (some token) feed
  | [], .ok _ => .ok none feed
  | [], .error fault => .error fault feed

instance : TokenSource Feed where
  peek := peek
  drop := fun feed => { feed with tokens := feed.tokens.tail }
  ending := fun feed =>
    match feed.ending with
    | .ok place => place
    | .error _ => default
  bound := fun feed => feed.tokens.length

variable {token : Token} {tokens : List Token} {ending : Except Fault Position}

@[simp] theorem peek_token :
    TokenSource.peek (⟨token :: tokens, ending⟩ : Feed) =
      .ok (some token) ⟨token :: tokens, ending⟩ := rfl

@[simp] theorem peek_end (place : Position) :
    TokenSource.peek (⟨[], .ok place⟩ : Feed) = .ok none ⟨[], .ok place⟩ := rfl

@[simp] theorem peek_fault (fault : Fault) :
    TokenSource.peek (⟨[], .error fault⟩ : Feed) = .error fault ⟨[], .error fault⟩ := rfl

@[simp] theorem bound_eq (feed : Feed) : TokenSource.bound feed = feed.tokens.length := rfl

end Feed

/-- Looking a second time changes nothing, and a dropped token makes the bound smaller. -/
class LawfulSource (σ : Type) [TokenSource σ] : Prop where
  peek_again : ∀ {source after : σ} {token : Option Token},
    TokenSource.peek source = .ok token after → TokenSource.peek after = .ok token after
  bound_drop : ∀ {source after : σ} {token : Token},
    TokenSource.peek source = .ok (some token) after →
      TokenSource.bound (TokenSource.drop after) < TokenSource.bound source

/-- `Feeds source tokens ending`: the source gives these tokens one by one and then ends so. -/
inductive Feeds {σ : Type} [TokenSource σ] : σ → List Token → Except Fault Position → Prop where
  | finish {source after : σ} (looked : TokenSource.peek source = .ok none after) :
      Feeds source [] (.ok (TokenSource.ending after))
  | broken {source after : σ} {fault : Fault}
      (looked : TokenSource.peek source = .error fault after) :
      Feeds source [] (.error fault)
  | token {source after : σ} {token : Token} {tokens : List Token}
      {ending : Except Fault Position}
      (looked : TokenSource.peek source = .ok (some token) after)
      (rest : Feeds (TokenSource.drop after) tokens ending) :
      Feeds source (token :: tokens) ending

variable {σ : Type} [TokenSource σ]

theorem Feeds.shown_eq {source after : σ} {tokens : List Token} {ending : Except Fault Position}
    {shown : Option Token} (feeds : Feeds source tokens ending)
    (looked : TokenSource.peek source = .ok shown after) : shown = tokens.head? := by
  cases feeds with
  | broken looked' =>
    rw [looked'] at looked
    cases looked
  | finish looked' | token looked' =>
    rw [looked'] at looked
    cases looked
    rfl

variable [LawfulSource σ]

theorem Feeds.length_le {source : σ} {tokens : List Token} {ending : Except Fault Position}
    (feeds : Feeds source tokens ending) : tokens.length ≤ TokenSource.bound source := by
  induction feeds with
  | finish _ | broken _ => exact Nat.zero_le _
  | token looked _ ih =>
    have smaller := LawfulSource.bound_drop looked
    rw [List.length_cons]
    omega

theorem exists_feeds (source : σ) : ∃ tokens ending, Feeds source tokens ending := by
  induction size : TokenSource.bound source using Nat.strongRecOn generalizing source with
  | _ size ih =>
    cases looked : TokenSource.peek source with
    | error fault after => exact ⟨[], .error fault, .broken looked⟩
    | ok token after =>
      cases token with
      | none => exact ⟨[], _, .finish looked⟩
      | some token =>
        have smaller := LawfulSource.bound_drop looked
        obtain ⟨tokens, ending, rest⟩ := ih _ (by omega) (TokenSource.drop after) rfl
        exact ⟨token :: tokens, ending, .token looked rest⟩

end StyleExpr
