import StyleExpr.Number.Double
import StyleExpr.Text.Basic

/-! Decimal numbers and their two written forms, and the decimal that stands for a `Double`: the
coarsest decimal grid that has a point which rounds to the number gives it, so no other decimal
that reads back has fewer digits. -/

namespace StyleExpr

/-- The number `digits * 10 ^ exponent`. -/
structure Decimal where
  digits : Nat
  exponent : Int
  deriving DecidableEq

namespace Decimal

def ratio (d : Decimal) : Nat × Nat :=
  if 0 ≤ d.exponent then (d.digits * 10 ^ d.exponent.toNat, 1)
  else (d.digits, 10 ^ (-d.exponent).toNat)

/-- The rank to which a decimal rounds. -/
def rank (d : Decimal) : Nat :=
  Double.nearestRank d.ratio.1 d.ratio.2

/-- Digits of which some stand behind the point. -/
theorem ratio_places (digits places : Nat) :
    (⟨digits, -(places : Int)⟩ : Decimal).ratio = (digits, 10 ^ places) := by
  rcases Nat.eq_zero_or_pos places with none | some
  · subst none
    simp [ratio]
  · simp [ratio, Nat.ne_of_gt some]

theorem rank_places (digits places : Nat) :
    (⟨digits, -(places : Int)⟩ : Decimal).rank = Double.nearestRank digits (10 ^ places) := by
  rw [rank, ratio_places]

/-- The points of the grid of step `10 ^ exponent` next to the magnitude of a rank: one at most as
large and one larger, with the distance of each in a common unit. -/
def neighbours (rank : Nat) (exponent : Int) : (Decimal × Nat) × (Decimal × Nat) :=
  let num := Double.units rank * 10 ^ (-exponent).toNat
  let den := Double.one * 10 ^ exponent.toNat
  ((⟨num / den, exponent⟩, num % den), (⟨num / den + 1, exponent⟩, den - num % den))

/-- The point of a grid that reads back as the rank, if there is one. The nearer of two is taken,
and of two equally near ones the even. -/
def onGrid? (rank : Nat) (exponent : Int) : Option Decimal :=
  let ((low, below), (high, above)) := neighbours rank exponent
  let lowFits := low.rank == rank
  let highFits := high.rank == rank
  if lowFits && highFits then
    some (if below < above || (below == above && low.digits % 2 == 0) then low else high)
  else if lowFits then some low
  else if highFits then some high
  else none

theorem onGrid?_rank {rank : Nat} {exponent : Int} {d : Decimal}
    (found : onGrid? rank exponent = some d) : d.rank = rank := by
  simp only [onGrid?] at found
  split at found
  · next fits =>
    simp only [Bool.and_eq_true, beq_iff_eq] at fits
    obtain rfl := Option.some.inj found
    split
    · exact fits.1
    · exact fits.2
  · split at found
    · next fits =>
      obtain rfl := Option.some.inj found
      exact beq_iff_eq.mp fits
    · split at found
      · next fits =>
        obtain rfl := Option.some.inj found
        exact beq_iff_eq.mp fits
      · cases found

/-- Tries grids from a coarse one downwards. On the last grid, the one of the finest
number's decimal places, every magnitude is a point. -/
def search (rank : Nat) : Nat → Decimal
  | 0 => ⟨Double.units rank * 5 ^ Double.places, -(Double.places : Int)⟩
  | steps + 1 => (onGrid? rank ((steps : Int) + 1 - Double.places)).getD (search rank steps)

theorem search_rank (rank steps : Nat) : (search rank steps).rank = rank := by
  induction steps with
  | zero =>
    rw [search, rank_places, show (10 : Nat) = 5 * 2 from rfl, Nat.mul_pow, Nat.mul_comm,
      Double.nearestRank_mul _ _ _ (Nat.pow_pos (by decide))]
    exact Double.nearestRank_units rank
  | succ steps ih =>
    unfold search
    cases found : onGrid? rank ((steps : Int) + 1 - Double.places) with
    | none => exact ih
    | some d => exact onGrid?_rank found

/-- A power of ten larger than twice the magnitude of a rank, so that no coarser grid has a point
that reads back. A binary digit is worth between 0.3 and 0.31 decimal ones. -/
def coarsest (rank : Nat) : Int :=
  let size : Int := (Double.units rank).log2 + 1 - Double.places
  if 0 ≤ size then size * 31 / 100 + 2 else 2 - -size * 3 / 10

def shortest (rank : Nat) : Decimal :=
  if rank = 0 then ⟨0, 0⟩ else search rank (coarsest rank + Double.places).toNat

/-- The decimal that stands for a magnitude reads back as it. -/
theorem shortest_rank (rank : Nat) : (shortest rank).rank = rank := by
  unfold shortest
  split
  · next zero =>
    subst zero
    decide +kernel
  · exact search_rank rank _

/-- The significant digits. -/
def figures (d : Decimal) : List CodePoint :=
  Text.digits 10 d.digits

/-- How many of the figures stand in front of the point. It is negative when zeros follow the point
and larger than the number of figures when zeros precede it. -/
def point (d : Decimal) : Int :=
  d.exponent + d.figures.length

/-- The digits in front of the point, at least one. -/
def wholeDigits (d : Decimal) : List CodePoint :=
  if d.point ≤ 0 then ['0']
  else
    d.figures.take d.point.toNat ++ List.replicate (d.point.toNat - d.figures.length) (scalar '0')

def partDigits (d : Decimal) : List CodePoint :=
  if d.figures.length ≤ d.point then ['0']
  else List.replicate (-d.point).toNat (scalar '0') ++ d.figures.drop d.point.toNat

/-- All digits at their places, with the point among them. -/
def positional (d : Decimal) : List CodePoint :=
  d.wholeDigits ++ scalar '.' :: d.partDigits

def leadingPower (d : Decimal) : Int :=
  d.point - 1

/-- One figure in front of the point, and the power of ten that it stands for, with its sign and at
least two digits. A single figure has no point. -/
def scientific (d : Decimal) : List CodePoint :=
  let power := Text.digits 10 d.leadingPower.natAbs
  let rest := d.figures.drop 1
  d.figures.take 1 ++ (if rest.isEmpty then [] else scalar '.' :: rest) ++
    scalar 'e' :: (if d.leadingPower < 0 then scalar '-' else scalar '+') ::
      List.replicate (2 - power.length) (scalar '0') ++ power

end Decimal

namespace Double

/-- Magnitudes from `10 ^ (-4)` up to `10 ^ 16` are displayed positionally. -/
def isDisplayedPositionally (d : Decimal) : Bool :=
  d.digits = 0 || (-4 ≤ d.leadingPower && d.leadingPower < 16)

private def signed (negative : Bool) (magnitude : List CodePoint) : Text :=
  Text.ofList (if negative then '-' :: magnitude else magnitude)

/-- The display of a number: the fewest digits that read back. -/
def display : Double → Text
  | .finite negative rank =>
    let d := Decimal.shortest rank
    signed negative (if isDisplayedPositionally d then d.positional else d.scientific)
  | .infinite negative => signed negative ['i', 'n', 'f']
  | .nan => "nan"

/-- The display without exponent: the same digits, positional at every magnitude. -/
def positional : Double → Text
  | .finite negative rank => signed negative (Decimal.shortest rank).positional
  | .infinite negative => signed negative ['i', 'n', 'f']
  | .nan => "nan"

end Double

end StyleExpr
