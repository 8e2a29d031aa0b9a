import StyleExpr.Number.Numeral
import StyleExpr.Position

/-! Places with a coordinate that may be blank, which a command line can ask for. Nothing counts on
from a blank coordinate, so only a front part of a text can be read from such a place: its `reach`. -/

namespace StyleExpr

/-- The number of a line or column, unless it is left blank. -/
inductive Coordinate where
  | number (value : Int)
  | blank
  deriving DecidableEq

namespace Coordinate

/-- A blank coordinate shows as an empty list. -/
def text : Coordinate → Text
  | number value => toString value
  | blank => "[]"

/-- Whether a coordinate can be shown: a number may be too long. -/
def isWritable : Coordinate → Bool
  | number value => Numeral.isWritable value
  | blank => true

/-- The number to count with; zero for a blank coordinate, which is never shown as a number. -/
def value : Coordinate → Int
  | number value => value
  | blank => 0

def next? : Coordinate → Option Coordinate
  | number value => some (number (value + 1))
  | blank => none

end Coordinate

structure Place where
  line : Coordinate
  column : Coordinate
  deriving DecidableEq

def Position.place (position : Position) : Place :=
  ⟨.number position.line, .number position.column⟩

namespace Place

def isWritable (place : Place) : Bool :=
  place.line.isWritable && place.column.isWritable

def position? : Place → Option Position
  | ⟨.number line, .number column⟩ => some ⟨line, column⟩
  | _ => none

def origin (place : Place) : Position :=
  ⟨place.line.value, place.column.value⟩

/-- The place behind a character, if it can be counted. -/
def after? (place : Place) (c : CodePoint) : Option Place :=
  if c = '\n' then place.line.next?.map fun line => ⟨line, .number 1⟩
  else place.column.next?.map fun column => ⟨place.line, column⟩

/-- How many characters at the front of a text can be counted. -/
def reach (place : Place) : List CodePoint → Nat
  | [] => 0
  | c :: rest =>
    match place.after? c with
    | some next => next.reach rest + 1
    | none => 0

/-- How a position shows that was counted from the origin of a place. A blank line stays blank, and
a blank column is left only with its line. -/
def shown (start : Place) (position : Position) : Place where
  line := if start.line = .blank then .blank else .number position.line
  column :=
    if start.column = .blank ∧ position.line = start.origin.line then .blank
    else .number position.column

@[simp] theorem position?_place (position : Position) :
    position.place.position? = some position := rfl

@[simp] theorem shown_place (start position : Position) :
    start.place.shown position = position.place := by
  simp [shown, Position.place]

end Place

end StyleExpr
