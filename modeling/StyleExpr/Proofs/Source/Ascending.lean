import StyleExpr.Proofs.Source.Transcript

/-! The order of places, by line and then by column. The tokens of a text stand in ascending places,
wherever the text begins. -/

namespace StyleExpr

namespace Position

instance : LT Position where
  lt first second :=
    first.line < second.line ∨ first.line = second.line ∧ first.column < second.column

instance : LE Position where
  le first second := first < second ∨ first = second

variable {first second third : Position}

theorem lt_iff : first < second ↔
    first.line < second.line ∨ first.line = second.line ∧ first.column < second.column :=
  Iff.rfl

theorem le_of_lt (before : first < second) : first ≤ second :=
  .inl before

theorem le_refl (position : Position) : position ≤ position :=
  .inr rfl

theorem lt_trans (before : first < second) (behind : second < third) : first < third := by
  rw [lt_iff] at *
  omega

theorem lt_of_lt_of_le (before : first < second) (behind : second ≤ third) : first < third := by
  rcases behind with behind | rfl
  · exact lt_trans before behind
  · exact before

theorem le_trans (before : first ≤ second) (behind : second ≤ third) : first ≤ third := by
  rcases before with before | rfl
  · exact le_of_lt (lt_of_lt_of_le before behind)
  · exact behind

theorem lt_after (position : Position) (c : CodePoint) : position < position.after c := by
  rw [lt_iff, after]
  split
  · exact .inl (Int.lt_succ _)
  · exact .inr ⟨rfl, Int.lt_succ _⟩

theorem le_afterAll (position : Position) (text : List CodePoint) : position ≤ position.afterAll text := by
  induction text generalizing position with
  | nil => exact le_refl _
  | cons c text ih => exact le_trans (le_of_lt (lt_after position c)) (ih _)

theorem lt_afterAll {text : List CodePoint} (nonempty : text ≠ []) (position : Position) :
    position < position.afterAll text := by
  obtain ⟨c, text, rfl⟩ := List.exists_cons_of_ne_nil nonempty
  exact lt_of_lt_of_le (lt_after position c) (le_afterAll _ _)

end Position

open Lexeme

variable {text rest front : List CodePoint} {place : Position} {tokens : List Token}

theorem Tokenizes.from_place (tokenizes : Tokenizes rest place front tokens) :
    ∀ token ∈ tokens, place ≤ token.position := by
  induction tokenizes with
  | finish => exact List.forall_mem_nil _
  | @blank place c _ _ _ _ ih =>
    have passed := Position.le_of_lt (Position.lt_after place c)
    exact fun token member => Position.le_trans passed (ih token member)
  | token _ _ ih =>
    refine List.forall_mem_cons.mpr ⟨Position.le_refl _, fun token member => ?_⟩
    exact Position.le_trans (Position.le_afterAll ..) (ih token member)

/-- The next token stands behind the whole spelling of the one in front of it. -/
theorem Tokenizes.ascending (tokenizes : Tokenizes rest place front tokens) :
    tokens.Pairwise (·.position < ·.position) := by
  induction tokenizes with
  | finish => exact .nil
  | blank _ _ ih => exact ih
  | @token place spelling front lexeme tokens reads others ih =>
    obtain ⟨c, back, rfl, -⟩ := reads
    refine .cons (fun token member => ?_) ih
    have passed := Position.lt_afterAll (List.cons_ne_nil c back) place
    exact Position.lt_of_lt_of_le passed (others.from_place token member)

theorem Transcript.ascending {ending : Except Fault Position}
    (transcript : Transcript text place tokens ending) : tokens.Pairwise (·.position < ·.position) := by
  obtain ⟨before, rest, rfl, tokenizes, -⟩ := transcript
  exact tokenizes.ascending

end StyleExpr
