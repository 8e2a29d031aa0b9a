import Mathlib.Algebra.Order.Field.Rat
import StyleExpr.Proofs.Expr.Equality

/-! The rational numbers that values denote, told from the format of doubles. Values are compared by
them: integers of any size, truth values and doubles are equal exactly if they denote one number. -/

namespace StyleExpr

namespace Double

/-- The number that the bits behind the sign stand for: an exponent above 52 bits of fraction. Numbers
with the least exponent have no leading one. -/
def exact (bits : Nat) : ℚ :=
  if bits / 2 ^ 52 = 0 then ((bits % 2 ^ 52 : ℕ) : ℚ) * 2 ^ (-1074 : ℤ)
  else ((2 ^ 52 + bits % 2 ^ 52 : ℕ) : ℚ) * 2 ^ (((bits / 2 ^ 52 : ℕ) : ℤ) - 1075)

theorem exact_mul_one (bits : Nat) : exact bits * one = units bits := by
  have two : (2 : ℚ) ≠ 0 := by decide
  have unit : (one : ℚ) = 2 ^ (places : ℤ) := by
    rw [one, Nat.cast_pow]
    exact (zpow_natCast _ _).symm
  have finest : (-1074 : ℤ) + places = 0 := rfl
  unfold exact units
  by_cases subnormal : bits < 2 ^ 52
  · rw [if_pos (Nat.div_eq_of_lt subnormal), if_pos subnormal, Nat.mod_eq_of_lt subnormal, unit,
      mul_assoc, ← zpow_add₀ two, finest, zpow_zero, mul_one]
  · have normal : 0 < bits / 2 ^ 52 := Nat.div_pos (Nat.not_lt.mp subnormal) (Nat.two_pow_pos 52)
    have power : ((bits / 2 ^ 52 : ℕ) : ℤ) - 1075 + places = (bits / 2 ^ 52 - 1 : ℕ) := by
      omega
    rw [if_neg (Nat.ne_of_gt normal), if_neg subnormal, unit, mul_assoc, ← zpow_add₀ two, power,
      zpow_natCast, Nat.cast_mul, Nat.cast_pow]
    rfl

/-- The rational number that a finite double is. -/
def rational? : Double → Option ℚ
  | finite negative rank => some (if negative then -exact rank else exact rank)
  | infinite _ | nan => none

end Double

namespace Value

/-- The rational number that a value denotes, if it denotes one. A truth value counts as zero or one. -/
def rational? : Value → Option ℚ
  | int number => some number
  | bool truth => some (if truth then 1 else 0)
  | float number => number.rational?
  | text _ | tuple _ | nothing => none

variable {value other : Value} {x : ℚ}

/-- A rational number is measured in the units of the finest double. -/
theorem measure?_of_rational? (found : value.rational? = some x) :
    ∃ units : Int, value.measure? = some (.finite units) ∧ x * Double.one = units := by
  cases value with
  | int number =>
    cases found
    exact ⟨_, rfl, by push_cast; rfl⟩
  | bool truth =>
    cases found
    refine ⟨_, rfl, ?_⟩
    cases truth with
    | true => rw [if_pos rfl, if_pos rfl, one_mul, Int.cast_natCast]
    | false => rw [if_neg Bool.false_ne_true, if_neg Bool.false_ne_true, zero_mul, Int.cast_zero]
  | float number =>
    cases number with
    | finite negative rank =>
      cases found
      refine ⟨_, rfl, ?_⟩
      have scaled := Double.exact_mul_one rank
      cases negative with
      | true => rw [if_pos rfl, if_pos rfl, neg_mul, scaled, Int.cast_neg, Int.cast_natCast]
      | false => rw [if_neg Bool.false_ne_true, if_neg Bool.false_ne_true, scaled, Int.cast_natCast]
    | infinite | nan => cases found
  | text | tuple | nothing => cases found

theorem rational?_of_measure? {units : Int} (found : value.measure? = some (.finite units)) :
    ∃ x, value.rational? = some x := by
  cases value with
  | int | bool => exact ⟨_, rfl⟩
  | float number =>
    cases number with
    | finite => exact ⟨_, rfl⟩
    | infinite | nan => cases found
  | text | tuple | nothing => cases found

/-- Values are equal if they have one measure, which is defined, or if they have none and are the same. -/
theorem same_iff_measure? : value.same other = true ↔
    (∃ measure, value.measure? = some measure ∧ other.measure? = some measure ∧
        measure ≠ .undefined) ∨
      value.measure? = none ∧ other.measure? = none ∧ value = other := by
  unfold Value.same
  cases value.measure? with
  | none => cases other.measure? <;> simp
  | some measure =>
    cases other.measure? with
    | none => simp
    | some measure' =>
      by_cases shared : measure = measure'
      · subst shared
        simp
      · simp [shared, Ne.symm shared]

theorem same_iff_rational? (found : value.rational? = some x) :
    value.same other = true ↔ other.rational? = some x := by
  obtain ⟨units, measured, scaled⟩ := measure?_of_rational? found
  rw [same_iff_measure?]
  constructor
  · rintro (⟨measure, measured', shared, -⟩ | ⟨missing, -⟩)
    · obtain rfl : Measure.finite units = measure := Option.some.inj (measured.symm.trans measured')
      obtain ⟨x', found'⟩ := rational?_of_measure? shared
      obtain ⟨units', again, scaled'⟩ := measure?_of_rational? found'
      obtain rfl : units = units' := by simpa [shared] using again
      have one : (Double.one : ℚ) ≠ 0 := Nat.cast_ne_zero.mpr (Nat.ne_of_gt Double.one_pos)
      rw [found', mul_right_cancel₀ one (scaled'.trans scaled.symm)]
    · rw [measured] at missing
      cases missing
  · intro found'
    obtain ⟨units', measured', scaled'⟩ := measure?_of_rational? found'
    obtain rfl : units = units' := by exact_mod_cast scaled.symm.trans scaled'
    exact .inl ⟨_, measured, measured', nofun⟩

/-- A value that denotes no number, or an infinite one, equals itself alone. -/
theorem same_iff_eq (missing : value.rational? = none) (defined : value ≠ .float .nan) :
    value.same other = true ↔ value = other := by
  constructor
  · intro same
    rcases same_iff_measure?.mp same with ⟨measure, measured, shared, other⟩ | ⟨-, -, same⟩
    · cases measure with
      | finite units =>
        obtain ⟨x, found⟩ := rational?_of_measure? measured
        rw [missing] at found
        cases found
      | infinite negative => rw [infinite_of_measure? measured, infinite_of_measure? shared]
      | undefined => exact (other rfl).elim
    · exact same
  · rintro rfl
    exact same_self defined

end Value

end StyleExpr
