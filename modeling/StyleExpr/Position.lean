import StyleExpr.Text.Basic

/-! Places in a source text, by line and column. -/

namespace StyleExpr

/-- A place in a source text. Hosts choose the numbers of the first line and column. -/
structure Position where
  line : Int
  column : Int
  deriving DecidableEq, Inhabited

namespace Position

/-- The place behind a character: a line feed opens a new line, whose first column is 1. -/
def after (position : Position) (c : CodePoint) : Position :=
  if c = '\n' then ⟨position.line + 1, 1⟩ else ⟨position.line, position.column + 1⟩

def afterAll (position : Position) (text : List CodePoint) : Position :=
  text.foldl after position

@[simp] theorem afterAll_nil (position : Position) : position.afterAll [] = position := rfl

@[simp] theorem afterAll_cons (position : Position) (c : CodePoint) (text : List CodePoint) :
    position.afterAll (c :: text) = (position.after c).afterAll text := rfl

theorem afterAll_append (position : Position) (first second : List CodePoint) :
    position.afterAll (first ++ second) = (position.afterAll first).afterAll second :=
  List.foldl_append

/-- Without a line feed, only the column goes on. -/
theorem afterAll_of_single (position : Position) {text : List CodePoint} (single : scalar '\n' ∉ text) :
    position.afterAll text = ⟨position.line, position.column + text.length⟩ := by
  induction text generalizing position with
  | nil => simp
  | cons c text ih =>
    obtain ⟨other, others⟩ := List.ne_and_not_mem_of_not_mem_cons single
    rw [afterAll_cons, ih _ others, after, if_neg (Ne.symm other), List.length_cons]
    simp only [mk.injEq, true_and]
    omega

theorem line_le_after (position : Position) (c : CodePoint) : position.line ≤ (position.after c).line := by
  unfold after
  split
  · exact Int.le_add_one (Int.le_refl _)
  · exact Int.le_refl _

end Position

end StyleExpr
