import StyleExpr.Proofs.Expr.Spelled
import StyleExpr.Report

/-! What a format shows of a tree: always a text, and in one format the places of the nodes, any of which
may be too long to be written. -/

namespace StyleExpr

def AllWritable (places : List Position) : Prop :=
  ∀ position ∈ places, position.place.isWritable = true

instance (places : List Position) : Decidable (AllWritable places) :=
  inferInstanceAs (Decidable (∀ position ∈ places, position.place.isWritable = true))

theorem allWritable_append {first second : List Position} :
    AllWritable (first ++ second) ↔ AllWritable first ∧ AllWritable second :=
  List.forall_mem_append

theorem allWritable_singleton {position : Position} :
    AllWritable [position] ↔ position.place.isWritable = true :=
  List.forall_mem_singleton

theorem exists_unwritable {places : List Position} (long : ¬ AllWritable places) :
    ∃ position ∈ places, position.place.isWritable = false := by
  simpa [AllWritable] using long

namespace Format

/-- The text of a tree in a format. -/
def Shows (expr : Expr) (text : Text) : Format → Prop
  | display => text = expr.display
  | json => text = (expr.record.json Position.place).layout
  | source => expr.write = .ok text

def places (expr : Expr) : Format → List Position
  | json => expr.walk.map Expr.position
  | display | source => []

variable {format : Format} {expr : Expr} {start : Position}

theorem exists_node_of_mem_places {position : Position} (member : position ∈ format.places expr) :
    ∃ node ∈ expr.walk, node.position = position := by
  cases format with
  | json => exact List.mem_map.mp member
  | display | source => cases member

theorem exists_shows (format : Format) (readable : expr.WellFormed Value.IsReadable) :
    ∃ text, format.Shows expr text := by
  cases format with
  | display => exact ⟨_, rfl⟩
  | json => exact ⟨_, rfl⟩
  | source =>
    obtain ⟨_, _, spelled⟩ := readable.spelled
    exact ⟨_, spelled.written⟩

theorem render_of_shows {text : Text} (shows : format.Shows expr text) :
    format.render start.place.shown expr =
      if AllWritable (format.places expr) then .ok text else .error .longNumber := by
  cases format with
  | display =>
    obtain rfl : text = expr.display := shows
    rfl
  | json =>
    obtain rfl : text = (expr.record.json Position.place).layout := shows
    have shown : start.place.shown = Position.place :=
      funext fun position => Place.shown_place start position
    simp only [render, places, AllWritable, shown, List.forall_mem_map, List.all_eq_true]
  | source =>
    have written : expr.write = .ok text := shows
    rw [render, written]
    rfl

end Format

end StyleExpr
