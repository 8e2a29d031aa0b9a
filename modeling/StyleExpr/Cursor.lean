import StyleExpr.Fault

/-! A cursor in a source text: what lies behind it, what lies ahead, and the place it is at. -/

namespace StyleExpr

structure Cursor where
  /-- The characters already read, the last one first. -/
  behind : List CodePoint
  ahead : List CodePoint
  position : Position
  deriving DecidableEq

namespace Cursor

def start (source : List CodePoint) (position : Position) : Cursor :=
  ⟨[], source, position⟩

def index (cursor : Cursor) : Nat :=
  cursor.behind.length

def atEnd (cursor : Cursor) : Bool :=
  cursor.ahead.isEmpty

/-- The character at a distance from the cursor, backwards if it is negative. -/
def peek (cursor : Cursor) (distance : Int) : Option CodePoint :=
  match distance with
  | .ofNat n => cursor.ahead[n]?
  | .negSucc n => cursor.behind[n]?

def skip (cursor : Cursor) (count : Nat) : Cursor where
  behind := (cursor.ahead.take count).reverse ++ cursor.behind
  ahead := cursor.ahead.drop count
  position := cursor.position.afterAll (cursor.ahead.take count)

def next : EStateM Fault Cursor CodePoint := fun cursor =>
  match cursor.ahead with
  | c :: _ => .ok c (cursor.skip 1)
  | [] => .error (.malformed .endOfText cursor.position) cursor

def source (cursor : Cursor) : List CodePoint :=
  cursor.behind.reverse ++ cursor.ahead

@[simp] theorem source_skip (cursor : Cursor) (count : Nat) :
    (cursor.skip count).source = cursor.source := by
  simp [source, skip]

end Cursor

end StyleExpr
