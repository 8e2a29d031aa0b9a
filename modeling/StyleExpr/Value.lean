import StyleExpr.Number.Decimal
import StyleExpr.Text.Quoted

/-! The values that tokens and literals carry. Nothing ties the form of a value to the kind of the
token that carries it: a host may hand over tokens of its own making. -/

namespace StyleExpr

inductive Value where
  | text (content : Text)
  | int (number : Int)
  | float (number : Double)
  | bool (truth : Bool)
  /-- A colour is a tuple of three channels; other lengths can be handed over. -/
  | tuple (items : List Int)
  | nothing
  deriving DecidableEq

namespace Value

/-- Items in parentheses; a single item keeps its comma. -/
def tupleText : List Int → Text
  | [item] => "(" ++ toString item ++ ",)"
  | items => "(" ++ Text.intercalate ", " (items.map fun item => toString item) ++ ")"

def plain : Value → Text
  | text content => content
  | int number => toString number
  | float number => number.display
  | bool truth => if truth then "True" else "False"
  | tuple items => tupleText items
  | nothing => "None"

/-- A value as a display shows it: only text is written differently, in quotes. -/
def display : Value → Text
  | text content => Text.quoted content
  | value => value.plain

def form : Value → Text
  | text _ => "str"
  | int _ => "int"
  | float _ => "float"
  | bool _ => "bool"
  | tuple _ => "tuple"
  | nothing => "NoneType"

def length? : Value → Option Nat
  | text content => some content.length
  | tuple items => some items.length
  | _ => none

/-- Empty texts and tuples, zero of either sign, falsity and nothing count as false. -/
def isTrue : Value → Bool
  | text content => !content.isEmpty
  | int number => number != 0
  | float (.finite _ rank) => rank.val != 0
  | float _ => true
  | bool truth => truth
  | tuple items => !items.isEmpty
  | nothing => false

/-- A number on a scale on which integers, booleans and doubles are compared exactly. -/
inductive Measure where
  /-- A finite number as a multiple of `2 ^ (-1074)`. -/
  | finite (units : Int)
  | infinite (negative : Bool)
  | undefined
  deriving DecidableEq

/-- The number that a value denotes, if it denotes one. A truth value counts as zero or one. -/
def measure? : Value → Option Measure
  | int number => some (.finite (number * Double.one))
  | bool truth => some (.finite (if truth then Double.one else 0))
  | float (.finite negative rank) =>
    let magnitude : Int := Double.units rank.val
    some (.finite (if negative then -magnitude else magnitude))
  | float (.infinite negative) => some (.infinite negative)
  | float .nan => some .undefined
  | _ => none

/-- Equality of values: numbers by what they denote, all else by form and content. A number that is
undefined equals nothing, itself included. -/
def same (a b : Value) : Bool :=
  match a.measure?, b.measure? with
  | some x, some y => x == y && x != .undefined
  | none, none => a == b
  | _, _ => false

end Value

end StyleExpr
