import StyleExpr.Proofs.Text.CodePoint
import Mathlib.Data.List.Basic

/-! Texts in units of sixteen bits, where two surrogates stand for each character above `0xFFFF`. A
text is told by its units unless it holds such surrogates itself, one right in front of the other. -/

namespace StyleExpr

namespace CodePoint

def IsHigh (c : CodePoint) : Prop :=
  0xD800 ≤ c.toNat ∧ c.toNat < 0xDC00

def IsLow (c : CodePoint) : Prop :=
  0xDC00 ≤ c.toNat ∧ c.toNat < 0xE000

instance (c : CodePoint) : Decidable c.IsHigh :=
  inferInstanceAs (Decidable (_ ∧ _))

instance (c : CodePoint) : Decidable c.IsLow :=
  inferInstanceAs (Decidable (_ ∧ _))

def high (c : CodePoint) : CodePoint :=
  ofNat (0xD800 + (c.toNat - 0x10000) / 0x400)

def low (c : CodePoint) : CodePoint :=
  ofNat (0xDC00 + (c.toNat - 0x10000) % 0x400)

/-- The units of a code point. Those of a character above `0xFFFF` are two surrogates. -/
def units (c : CodePoint) : List CodePoint :=
  if c.toNat < 0x10000 then [c] else [c.high, c.low]

variable {c d : CodePoint}

theorem units_short (short : c.toNat < 0x10000) : c.units = [c] :=
  if_pos short

theorem units_long (long : ¬ c.toNat < 0x10000) : c.units = [c.high, c.low] :=
  if_neg long

theorem units_ne_nil (c : CodePoint) : c.units ≠ [] := by
  unfold units
  split <;> exact List.cons_ne_nil _ _

theorem toNat_high (c : CodePoint) : c.high.toNat = 0xD800 + (c.toNat - 0x10000) / 0x400 := by
  have bounded := c.toNat_lt
  exact toNat_ofNat (by omega)

theorem toNat_low (c : CodePoint) : c.low.toNat = 0xDC00 + (c.toNat - 0x10000) % 0x400 :=
  toNat_ofNat (by omega)

theorem isHigh_high (c : CodePoint) : c.high.IsHigh := by
  have bounded := c.toNat_lt
  rw [IsHigh, toNat_high]
  omega

theorem isLow_low (c : CodePoint) : c.low.IsLow := by
  rw [IsLow, toNat_low]
  omega

/-- A character above `0xFFFF` is told by its surrogates. -/
theorem eq_of_surrogates (long : ¬ c.toNat < 0x10000) (long' : ¬ d.toNat < 0x10000)
    (first : c.high = d.high) (second : c.low = d.low) : c = d := by
  have quotient := congrArg toNat first
  have remainder := congrArg toNat second
  rw [toNat_high, toNat_high] at quotient
  rw [toNat_low, toNat_low] at remainder
  exact toNat_inj.mp (by omega)

theorem IsHigh.short (isHigh : c.IsHigh) : c.toNat < 0x10000 := by
  obtain ⟨_, bounded⟩ := isHigh
  omega

theorem IsLow.short (isLow : c.IsLow) : c.toNat < 0x10000 := by
  obtain ⟨_, bounded⟩ := isLow
  omega

theorem short_of_mem_units (member : d ∈ c.units) : d.toNat < 0x10000 := by
  unfold units at member
  split at member
  · next short =>
    rw [List.mem_singleton.mp member]
    exact short
  · simp only [List.mem_cons, List.not_mem_nil, or_false] at member
    rcases member with unit | unit
    · rw [unit]
      exact c.isHigh_high.short
    · rw [unit]
      exact c.isLow_low.short

end CodePoint

namespace Text

variable {text text' : List CodePoint} {c d : CodePoint}

/-- No high surrogate stands right in front of a low one. -/
def Unpaired (text : List CodePoint) : Prop :=
  ∀ high low, [high, low] <:+: text → high.IsHigh → ¬ low.IsLow

theorem Unpaired.tail (unpaired : Unpaired (c :: text)) : Unpaired text :=
  fun high low inside => unpaired high low (List.infix_cons inside)

theorem unpaired_of_none (none : ∀ c ∈ text, ¬ c.IsHigh) : Unpaired text :=
  fun high _ inside surrogate => (none high (inside.subset (List.mem_cons_self ..)) surrogate).elim

/-- Only a low surrogate itself has units that begin with one. -/
theorem exists_of_units_low {more : List CodePoint} (isLow : d.IsLow)
    (same : text.flatMap CodePoint.units = d :: more) : ∃ rest, text = d :: rest := by
  cases text with
  | nil => cases same
  | cons c rest =>
    rw [List.flatMap_cons] at same
    by_cases short : c.toNat < 0x10000
    · rw [CodePoint.units_short short] at same
      exact ⟨rest, by rw [(List.cons.inj same).1]⟩
    · rw [CodePoint.units_long short] at same
      have isHigh := c.isHigh_high
      rw [(List.cons.inj same).1] at isHigh
      exact absurd isLow.1 (Nat.not_le.mpr isHigh.2)

/-- The surrogates of a character are no part of a text where none follow each other. -/
theorem Unpaired.units_ne {more : List CodePoint} (unpaired : Unpaired (d :: text)) (c : CodePoint) :
    d :: text.flatMap CodePoint.units ≠ c.high :: c.low :: more := by
  intro same
  obtain ⟨rfl, behind⟩ := List.cons.inj same
  obtain ⟨rest, rfl⟩ := exists_of_units_low c.isLow_low behind
  exact unpaired _ _ (List.prefix_append [c.high, c.low] rest).isInfix c.isHigh_high c.isLow_low

theorem eq_of_units (unpaired : Unpaired text) (unpaired' : Unpaired text')
    (same : text.flatMap CodePoint.units = text'.flatMap CodePoint.units) : text = text' := by
  induction text generalizing text' with
  | nil =>
    cases text' with
    | nil => rfl
    | cons d rest' => exact (List.append_ne_nil_of_left_ne_nil d.units_ne_nil _ same.symm).elim
  | cons c rest ih =>
    cases text' with
    | nil => exact (List.append_ne_nil_of_left_ne_nil c.units_ne_nil _ same).elim
    | cons d rest' =>
      rw [List.flatMap_cons, List.flatMap_cons] at same
      have onward := ih unpaired.tail unpaired'.tail
      by_cases short : c.toNat < 0x10000
      · rw [CodePoint.units_short short] at same
        by_cases short' : d.toNat < 0x10000
        · rw [CodePoint.units_short short'] at same
          obtain ⟨rfl, behind⟩ := List.cons.inj same
          rw [onward behind]
        · rw [CodePoint.units_long short'] at same
          exact (unpaired.units_ne d same).elim
      · rw [CodePoint.units_long short] at same
        by_cases short' : d.toNat < 0x10000
        · rw [CodePoint.units_short short'] at same
          exact (unpaired'.units_ne c same.symm).elim
        · rw [CodePoint.units_long short'] at same
          obtain ⟨first, second⟩ := List.cons.inj same
          obtain ⟨second, behind⟩ := List.cons.inj second
          rw [CodePoint.eq_of_surrogates short short' first second, onward behind]

/-- The text with two surrogates for each character above `0xFFFF`. -/
def inUnits (text : Text) : Text :=
  ofList (text.toList.flatMap CodePoint.units)

theorem inUnits_short {text : Text} (short : ∀ c ∈ text.toList, c.toNat < 0x10000) :
    text.inUnits = text := by
  have each : text.toList.flatMap CodePoint.units = text.toList.flatMap fun c => [c] :=
    List.flatMap_congr fun c member => CodePoint.units_short (short c member)
  rw [inUnits, each, List.flatMap_singleton', ofList_toList]

end Text

end StyleExpr
