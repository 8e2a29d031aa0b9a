/-! Binary floating point numbers of 64 bits, described by exact integers. -/

-- Powers of numbers are those of the core library, whatever else is imported.
attribute [instance (2000), default_instance 20000] instPowNat

namespace StyleExpr

/-- The number of finite magnitudes: 2047 exponents with `2 ^ 52` fractions each. -/
def Double.finiteCount : Nat := 2047 * 2 ^ 52

/-- A finite number is a sign and the rank of its magnitude among all finite magnitudes. -/
inductive Double where
  | finite (negative : Bool) (rank : Fin Double.finiteCount)
  | infinite (negative : Bool)
  | nan
  deriving DecidableEq

namespace Double

/-- The magnitude of a rank as a multiple of the finest number, `2 ^ (-1074)`. Ranks below `2 ^ 52`
are the subnormal numbers; each further block of `2 ^ 52` ranks doubles the step between
neighbours. -/
def units (rank : Nat) : Nat :=
  if rank < 2 ^ 52 then rank else (2 ^ 52 + rank % 2 ^ 52) * 2 ^ (rank / 2 ^ 52 - 1)

/-- The binary places behind the point of the finest number. -/
def places : Nat := 1074

def one : Nat := 2 ^ places

/-- The integer nearest to a quotient; of two equally near the even one. -/
def roundHalfEven (num den : Nat) : Nat :=
  let whole := num / den
  let rest := num % den
  if 2 * rest < den then whole
  else if den < 2 * rest then whole + 1
  else whole + whole % 2

theorem roundHalfEven_mul (factor num den : Nat) (positive : 0 < factor) :
    roundHalfEven (factor * num) (factor * den) = roundHalfEven num den := by
  simp only [roundHalfEven, Nat.mul_div_mul_left _ _ positive, Nat.mul_mod_mul_left,
    Nat.mul_left_comm 2 factor, Nat.mul_lt_mul_left positive]

theorem roundHalfEven_exact (whole den : Nat) (positive : 0 < den) :
    roundHalfEven (whole * den) den = whole := by
  simp [roundHalfEven, Nat.mul_div_cancel _ positive, positive]

/-- The rank nearest to a quotient, ties going to the even rank. Ranks from `finiteCount` on stand
for magnitudes that are too large to be finite. -/
def nearestRank (num den : Nat) : Nat :=
  let scale := (num * one / den).log2 - 52
  scale * 2 ^ 52 + roundHalfEven (num * one) (den * 2 ^ scale)

theorem nearestRank_mul (factor num den : Nat) (positive : 0 < factor) :
    nearestRank (factor * num) (factor * den) = nearestRank num den := by
  simp only [nearestRank, Nat.mul_assoc, Nat.mul_div_mul_left _ _ positive,
    roundHalfEven_mul _ _ _ positive]

private theorem log2_units {rank : Nat} (normal : 2 ^ 52 ≤ rank) :
    (units rank).log2 = 52 + (rank / 2 ^ 52 - 1) := by
  have fraction := Nat.mod_lt rank (show 0 < 2 ^ 52 by decide)
  have low : 2 ^ 52 ≤ 2 ^ 52 + rank % 2 ^ 52 := Nat.le_add_right _ _
  have high : 2 ^ 52 + rank % 2 ^ 52 < 2 ^ 53 := by omega
  have nonzero : units rank ≠ 0 := by
    simp only [units, Nat.not_lt.mpr normal, ↓reduceIte]
    exact Nat.mul_ne_zero (by omega) (Nat.ne_of_gt (Nat.two_pow_pos _))
  rw [Nat.log2_eq_iff nonzero]
  simp only [units, Nat.not_lt.mpr normal, ↓reduceIte]
  constructor
  · rw [Nat.pow_add]
    exact Nat.mul_le_mul_right _ low
  · rw [show 52 + (rank / 2 ^ 52 - 1) + 1 = 53 + (rank / 2 ^ 52 - 1) by omega, Nat.pow_add]
    exact Nat.mul_lt_mul_of_pos_right high (Nat.two_pow_pos _)

theorem one_pos : 0 < one :=
  Nat.two_pow_pos places

/-- A finite magnitude rounds to its own rank. -/
theorem nearestRank_units (rank : Nat) : nearestRank (units rank) one = rank := by
  simp only [nearestRank, Nat.mul_div_cancel _ one_pos]
  by_cases subnormal : rank < 2 ^ 52
  · have scale : rank.log2 - 52 = 0 := by
      by_cases zero : rank = 0
      · simp [zero]
      · have := (Nat.log2_lt zero).mpr subnormal
        omega
    simp only [units, subnormal, ↓reduceIte, scale, Nat.zero_mul, Nat.zero_add, Nat.pow_zero,
      Nat.mul_one, roundHalfEven_exact _ _ one_pos]
  · have normal := Nat.not_lt.mp subnormal
    rw [log2_units normal, Nat.add_sub_cancel_left, Nat.mul_comm one]
    have expanded : units rank * one =
        (2 ^ 52 + rank % 2 ^ 52) * (2 ^ (rank / 2 ^ 52 - 1) * one) := by
      simp only [units, subnormal, ↓reduceIte, Nat.mul_assoc]
    rw [expanded, roundHalfEven_exact _ _ (Nat.mul_pos (Nat.two_pow_pos _) one_pos)]
    have := Nat.div_add_mod rank (2 ^ 52)
    have := Nat.div_pos normal (Nat.two_pow_pos 52)
    omega

def ofRatio (negative : Bool) (num den : Nat) : Double :=
  let rank := nearestRank num den
  if small : rank < finiteCount then .finite negative ⟨rank, small⟩ else .infinite negative

end Double

end StyleExpr
