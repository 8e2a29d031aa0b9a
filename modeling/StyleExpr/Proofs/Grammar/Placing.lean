import StyleExpr.Proofs.Grammar.Follow
import StyleExpr.Reading

/-! Feeds with the places of their tokens changed. A parser reads the same from them, with the places of
the tree, or of the fault, changed in the same way. -/

namespace StyleExpr

variable {α β : Type} {place : Position → Position}

/-- What became of an action, with every place changed. -/
def movedResult (place : Position → Position) (image : α → β) : Except Fault α → Except Fault β
  | .ok result => .ok (image result)
  | .error fault => .error (fault.moved place)

@[simp] theorem movedResult_ok (image : α → β) (result : α) :
    movedResult place image (.ok result) = .ok (image result) := rfl

@[simp] theorem movedResult_error (image : α → β) (fault : Fault) :
    movedResult place image (.error fault) = .error (fault.moved place) := rfl

def Feed.moved (place : Position → Position) (feed : Feed) : Feed where
  tokens := feed.tokens.map (Token.moved place)
  ending := movedResult place place feed.ending

def Reading.moved (place : Position → Position) (reading : Reading) : Reading where
  outcome := movedResult place (Expr.moved place) reading.outcome
  warnings := reading.warnings

namespace Pairing

def moved (place : Position → Position) : Pairing Feed where
  place := place
  limit := 0
  joined := fun feed other => other = feed.moved place
  broken := fun fault left => left = ⟨[], .error (fault.moved place)⟩
  look_token := by
    rintro token tokens ending _ rfl
    exact ⟨_, rfl, rfl, fun _ => rfl⟩
  look_end := by
    rintro position _ rfl
    exact ⟨_, rfl, rfl, rfl⟩
  look_fault := by
    rintro fault _ rfl
    exact ⟨_, rfl, rfl⟩

/-- A source that follows a feed is read as the feed is, at its own places. -/
theorem reading_eq {τ : Type} [TokenSource τ] {source : τ} {feed : Feed} (pairing : Pairing τ)
    (whole : pairing.limit = 0) (joined : pairing.joined feed source)
    (bounded : feed.tokens.length ≤ TokenSource.bound source) :
    (Reading.ofSource source).1 = (Reading.ofSource feed).1.moved pairing.place := by
  unfold Reading.ofSource Parser.ofSource
  cases ran : Parser.expression (⟨feed, []⟩ : Parser Feed) with
  | ok expr after =>
    obtain ⟨behind, run, -⟩ := pairing.expression_ok joined bounded ran (whole ▸ Nat.zero_le _)
    rw [run]
    rfl
  | error fault after =>
    obtain ⟨behind, run, -⟩ := pairing.expression_error joined bounded ran (whole ▸ Nat.zero_le _)
    rw [run]
    rfl

end Pairing

theorem Reading.moved_id (reading : Reading) : reading.moved id = reading := by
  obtain ⟨_ | _, warnings⟩ := reading <;> simp [moved]

theorem Reading.ofSource_moved (place : Position → Position) (feed : Feed) :
    (Reading.ofSource (feed.moved place)).1 = (Reading.ofSource feed).1.moved place := by
  have joined : (Pairing.moved place).joined feed (feed.moved place) := rfl
  exact (Pairing.moved place).reading_eq rfl joined (Nat.le_of_eq (List.length_map _).symm)

theorem Feeds.reading_eq {σ : Type} [TokenSource σ] [LawfulSource σ] {source : σ} {tokens : List Token}
    {ending : Except Fault Position} (feeds : Feeds source tokens ending) :
    (Reading.ofSource source).1 = (Reading.ofSource (⟨tokens, ending⟩ : Feed)).1 := by
  have joined : (Pairing.ofLawful σ).joined ⟨tokens, ending⟩ source := feeds
  exact ((Pairing.ofLawful σ).reading_eq rfl joined feeds.length_le).trans (Reading.moved_id _)

end StyleExpr
