import StyleExpr.Text.Basic

/-! Code points by their numbers. -/

namespace StyleExpr.CodePoint

theorem toNat_lt (c : CodePoint) : c.toNat < 0x110000 := by
  cases c with
  | scalar c =>
    have valid : c.toNat < 0xD800 ∨ 0xDFFF < c.toNat ∧ c.toNat < 0x110000 := c.valid
    rw [toNat_scalar]
    omega
  | surrogate index =>
    rw [toNat_surrogate]
    omega

/-- The code point with a number. -/
def ofNat (number : Nat) : CodePoint :=
  if _ : 0xD800 ≤ number ∧ number < 0xE000 then surrogate ⟨number - 0xD800, by omega⟩
  else scalar (Char.ofNat number)

theorem ofNat_toNat (c : CodePoint) : ofNat c.toNat = c := by
  cases c with
  | scalar c =>
    have valid : c.toNat < 0xD800 ∨ 0xDFFF < c.toNat ∧ c.toNat < 0x110000 := c.valid
    rw [toNat_scalar, ofNat, dif_neg (by omega), Char.ofNat_toNat]
  | surrogate index =>
    rw [toNat_surrogate, ofNat, dif_pos (by omega)]
    exact congrArg surrogate (Fin.ext (Nat.add_sub_cancel_left ..))

theorem toNat_ofNat {number : Nat} (valid : number < 0x110000) : (ofNat number).toNat = number := by
  unfold ofNat
  split
  · next inside => exact Nat.add_sub_cancel' inside.1
  · next outside =>
    have real : number.isValidChar := by
      unfold Nat.isValidChar
      omega
    rw [toNat_scalar, Char.ofNat, dif_pos real]
    rfl

theorem toNat_inj {c d : CodePoint} : c.toNat = d.toNat ↔ c = d :=
  ⟨fun same => by rw [← ofNat_toNat c, same, ofNat_toNat], congrArg toNat⟩

/-- A decimal digit of ASCII. -/
def isDigit : CodePoint → Bool
  | scalar c => c.isDigit
  | surrogate _ => false

@[simp] theorem isDigit_scalar (c : Char) : (scalar c).isDigit = c.isDigit := rfl

theorem isDigit_iff {c : CodePoint} : c.isDigit = true ↔ 48 ≤ c.toNat ∧ c.toNat ≤ 57 := by
  cases c with
  | scalar c => exact Char.isDigit_iff_toNat
  | surrogate index =>
    simp only [isDigit, toNat, Bool.false_eq_true, false_iff]
    omega

end StyleExpr.CodePoint
