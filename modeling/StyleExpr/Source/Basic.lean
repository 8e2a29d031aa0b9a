import StyleExpr.Fault
import StyleExpr.Token.Basic

/-! Token sources: what a parser needs to know about where its tokens come from. -/

namespace StyleExpr

/-- A source shows its next token, again and again until the token is dropped. Showing it may fail,
and changes the source in either case: the state after a failure is what the next attempt meets. -/
class TokenSource (σ : Type) where
  /-- The next token, left in the source; none at the end. -/
  peek : EStateM Fault σ (Option Token)
  /-- The source without the token that `peek` has shown. -/
  drop : σ → σ
  /-- The place of the end, for a source that has shown no token. -/
  ending : σ → Position
  /-- No source has more tokens left than this. -/
  bound : σ → Nat

namespace TokenSource

variable {σ : Type} [TokenSource σ]

def next : EStateM Fault σ (Option Token) := do
  let token ← peek
  if token.isSome then modify drop
  return token

def isDone : EStateM Fault σ Bool := do
  return (← peek).isNone

/-- The place of the next token or, behind the last one, of the end. -/
def position : EStateM Fault σ Position := do
  match ← peek with
  | some token => return token.position
  | none => return ending (← get)

/-- Takes tokens up to the end or to the first fault, at most the given number of them. Gives the
tokens, the fault if there was one, and the source as it is left. -/
def collectUpTo : Nat → σ → List Token × Option Fault × σ
  | 0, source => ([], none, source)
  | count + 1, source =>
    match next source with
    | .ok none source => ([], none, source)
    | .ok (some token) source =>
      let (tokens, fault, source) := collectUpTo count source
      (token :: tokens, fault, source)
    | .error fault source => ([], some fault, source)

/-- Takes all tokens that are left, up to the first fault. -/
def collect (source : σ) : List Token × Option Fault × σ :=
  collectUpTo (bound source + 1) source

/-- Takes all tokens that are left; a fault discards them. -/
def drain : EStateM Fault σ (List Token) := fun source =>
  match collect source with
  | (tokens, none, source) => .ok tokens source
  | (_, some fault, source) => .error fault source

end TokenSource

end StyleExpr
