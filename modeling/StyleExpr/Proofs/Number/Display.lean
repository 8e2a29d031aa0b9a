import StyleExpr.Expr.Canonical
import StyleExpr.Proofs.Number.Notation

/-! What the display of a number tells. Its digits and its power of ten are read off again, so no two
numbers have one display. -/

namespace StyleExpr

theorem digits_injective {number number' : Nat}
    (same : Text.digits 10 number = Text.digits 10 number') : number = number' := by
  have read := congrArg (Text.ofDigits 10 · 0) same
  simpa only [Text.ofDigits_digits] using read

/-- A text that begins with a digit, and so with no sign. -/
def DigitFirst (text : List CodePoint) : Prop :=
  ∃ c rest, text = c :: rest ∧ c.isDigit = true

theorem Plain.digitFirst {front : List CodePoint} (plain : Plain front) (nonempty : front ≠ [])
    (back : List CodePoint) : DigitFirst (front ++ back) := by
  obtain ⟨c, front, rfl⟩ := List.exists_cons_of_ne_nil nonempty
  exact ⟨c, front ++ back, rfl, plain c (List.mem_cons_self ..)⟩

theorem signed_inj {negative negative' : Bool} {text text' : List CodePoint} (first : DigitFirst text)
    (first' : DigitFirst text')
    (same : (if negative then scalar '-' :: text else text) =
      if negative' then scalar '-' :: text' else text') :
    negative = negative' ∧ text = text' := by
  have unsigned {text rest : List CodePoint} (first : DigitFirst text) : text ≠ scalar '-' :: rest := by
    rintro rfl
    obtain ⟨c, rest, split, digit⟩ := first
    cases split
    cases digit
  cases negative <;> cases negative'
  · exact ⟨rfl, same⟩
  · exact absurd same (unsigned first)
  · exact absurd same.symm (unsigned first')
  · exact ⟨rfl, (List.cons.inj same).2⟩

namespace Decimal

def mantissa (d : Decimal) : List CodePoint :=
  d.figures.take 1 ++ if (d.figures.drop 1).isEmpty then [] else scalar '.' :: d.figures.drop 1

def powerDigits (d : Decimal) : List CodePoint :=
  let power := Text.digits 10 d.leadingPower.natAbs
  List.replicate (2 - power.length) (scalar '0') ++ power

def powerSign (d : Decimal) : CodePoint :=
  if d.leadingPower < 0 then scalar '-' else scalar '+'

variable {d d' : Decimal}

theorem scientific_eq (d : Decimal) :
    d.scientific = d.mantissa ++ scalar 'e' :: d.powerSign :: d.powerDigits := by
  simp only [scientific, mantissa, powerSign, powerDigits, List.append_assoc, List.cons_append]

theorem plain_figures (d : Decimal) : Plain d.figures :=
  plain_digits _

theorem plain_powerDigits (d : Decimal) : Plain d.powerDigits :=
  (plain_zeros _).append (plain_digits _)

theorem ofDigits_powerDigits (d : Decimal) :
    Text.ofDigits 10 d.powerDigits 0 = d.leadingPower.natAbs := by
  rw [powerDigits, Text.ofDigits_append, Text.ofDigits_replicate_zero, Nat.mul_zero,
    Text.ofDigits_digits]

theorem positional_mantissa (d : Decimal) :
    Positional d.mantissa ⟨d.digits, -(d.figures.drop 1).length⟩ := by
  have written : Text.ofDigits 10 d.figures 0 = d.digits := Text.ofDigits_digits
  have plain := d.plain_figures
  have some : d.figures ≠ [] := List.ne_nil_of_length_pos d.figures_pos
  unfold mantissa
  generalize d.figures = figures at written plain some
  obtain ⟨first, rest, rfl⟩ := List.exists_cons_of_ne_nil some
  rw [← written]
  cases rest with
  | nil => exact .whole some plain
  | cons second rest =>
    obtain ⟨digit, others⟩ := List.forall_mem_cons.mp plain
    have pointed : Positional ([first] ++ scalar '.' :: second :: rest) _ :=
      .point (List.cons_ne_nil _ _) (List.cons_ne_nil _ _) (List.forall_mem_singleton.mpr digit) others
    exact pointed

theorem powerOfTen_scientific (d : Decimal) :
    PowerOfTen (scalar 'e' :: d.powerSign :: d.powerDigits) d.leadingPower := by
  have nonempty : d.powerDigits ≠ [] :=
    List.append_ne_nil_of_right_ne_nil _ Text.digits_ne_nil
  have size := d.ofDigits_powerDigits
  unfold powerSign
  split
  · have scale := PowerOfTen.down nonempty d.plain_powerDigits
    rwa [size, show -(d.leadingPower.natAbs : Int) = d.leadingPower by omega] at scale
  · have scale := PowerOfTen.up nonempty d.plain_powerDigits
    rwa [size, show (d.leadingPower.natAbs : Int) = d.leadingPower by omega] at scale

theorem represents_scientific (d : Decimal) : Represents d.scientific d.quantity := by
  have represents := Represents.numeral d.positional_mantissa d.powerOfTen_scientific
  have place : -((d.figures.drop 1).length : Int) + d.leadingPower = d.exponent := by
    have some := d.figures_pos
    rw [leadingPower, point, List.length_drop]
    omega
  rwa [← scientific_eq, place] at represents

/-- A decimal is told by its figures and the power of the first one. -/
theorem eq_of_figures (figures : d.figures = d'.figures) (power : d.leadingPower = d'.leadingPower) :
    d = d' := by
  have digits : d.digits = d'.digits := digits_injective figures
  have exponent : d.exponent = d'.exponent := by
    simp only [leadingPower, point, figures] at power
    omega
  cases d
  cases d'
  simp_all

theorem scientific_injective (same : d.scientific = d'.scientific) : d = d' := by
  rw [scientific_eq, scientific_eq] at same
  obtain ⟨mantissa, tail⟩ := append_inj_of_run d.positional_mantissa.ne_letter
    d'.positional_mantissa.ne_letter (by simp) (by simp) same
  have digits := d.positional_mantissa.unique (mantissa ▸ d'.positional_mantissa)
  have power := d.powerOfTen_scientific.unique (tail ▸ d'.powerOfTen_scientific)
  exact eq_of_figures (congrArg (Text.digits 10) (Decimal.mk.inj digits).1) power

theorem rank_eq_of_positional (same : d.positional = d'.positional) : d.rank = d'.rank := by
  obtain ⟨whole, behind⟩ := append_inj_of_run d.plain_wholeDigits.ne_point
    d'.plain_wholeDigits.ne_point (by simp) (by simp) same
  rw [← rank_positional, ← rank_positional, whole, (List.cons.inj behind).2]

theorem point_mem_positional (d : Decimal) : scalar '.' ∈ d.positional :=
  List.mem_append_right _ (List.mem_cons_self ..)

theorem letter_mem_scientific (d : Decimal) : scalar 'e' ∈ d.scientific := by
  rw [scientific_eq]
  exact List.mem_append_right _ (List.mem_cons_self ..)

/-- What the digits and signs of a written number are made of. -/
def IsFigure (c : CodePoint) : Prop :=
  c.isDigit = true ∨ c ∈ [scalar '.', scalar 'e', scalar '+', scalar '-']

theorem isFigure_of_mem_scientific {c : CodePoint} (member : c ∈ d.scientific) : IsFigure c := by
  rw [scientific_eq] at member
  rcases List.mem_append.mp member with mantissa | behind
  · rcases d.positional_mantissa.isDigit_or_point c mantissa with digit | rfl
    · exact .inl digit
    · exact .inr (by decide)
  · rcases List.mem_cons.mp behind with rfl | power
    · exact .inr (by decide)
    · rcases List.mem_cons.mp power with sign | digit
      · right
        rw [sign, powerSign]
        split <;> decide
      · exact .inl (d.plain_powerDigits c digit)

end Decimal

namespace Double

open Decimal

def magnitude (rank : Nat) : List CodePoint :=
  if isDisplayedPositionally (shortest rank) then (shortest rank).positional
  else (shortest rank).scientific

theorem display_finite (negative : Bool) (rank : Fin finiteCount) :
    (finite negative rank).display =
      Text.ofList (if negative then scalar '-' :: magnitude rank else magnitude rank) := rfl

theorem magnitude_injective {rank rank' : Nat} (same : magnitude rank = magnitude rank') :
    rank = rank' := by
  have apart {d d' : Decimal} (same : d.positional = d'.scientific) : False := by
    have member := d'.letter_mem_scientific
    rw [← same] at member
    simpa using d.positional_positional.ne_letter (scalar 'e') member
  suffices ranks : (shortest rank).rank = (shortest rank').rank by
    rwa [shortest_rank, shortest_rank] at ranks
  unfold magnitude at same
  split at same <;> split at same
  · exact rank_eq_of_positional same
  · exact (apart same).elim
  · exact (apart same.symm).elim
  · exact congrArg Decimal.rank (scientific_injective same)

theorem represents_magnitude (rank : Nat) : Represents (magnitude rank) (shortest rank).quantity := by
  unfold magnitude
  split
  · exact represents_positional _
  · exact represents_scientific _

theorem digitFirst_magnitude (rank : Nat) : DigitFirst (magnitude rank) := by
  unfold magnitude
  split
  · exact (plain_wholeDigits _).digitFirst (wholeDigits_ne_nil _) _
  · have first : (shortest rank).figures.take 1 ≠ [] := by
      have some := (shortest rank).figures_pos
      intro none
      rcases List.take_eq_nil_iff.mp none with zero | empty
      · cases zero
      · simp [empty] at some
    have plain : Plain ((shortest rank).figures.take 1) :=
      fun c member => plain_figures _ c (List.mem_of_mem_take member)
    rw [scientific_eq, mantissa, List.append_assoc]
    exact plain.digitFirst first _

theorem isFigure_of_mem_magnitude {rank : Nat} {c : CodePoint} (member : c ∈ magnitude rank) :
    IsFigure c := by
  unfold magnitude at member
  split at member
  · rcases (positional_positional _).isDigit_or_point c member with digit | rfl
    · exact .inl digit
    · exact .inr (by decide)
  · exact isFigure_of_mem_scientific member

/-- A magnitude shows that it is none of an integer. -/
theorem exists_mark_mem_magnitude (rank : Nat) : ∃ c ∈ magnitude rank, c = scalar '.' ∨ c = scalar 'e' := by
  unfold magnitude
  split
  · exact ⟨scalar '.', point_mem_positional _, .inl rfl⟩
  · exact ⟨scalar 'e', letter_mem_scientific _, .inr rfl⟩

theorem display_finite_injective {negative negative' : Bool} {rank rank' : Fin finiteCount}
    (same : (finite negative rank).display = (finite negative' rank').display) :
    finite negative rank = finite negative' rank' := by
  simp only [display_finite, Text.ofList_inj] at same
  obtain ⟨rfl, written⟩ := signed_inj (digitFirst_magnitude rank) (digitFirst_magnitude rank') same
  exact congrArg (finite negative) (Fin.ext (magnitude_injective written))

end Double

/-- The digits and the sign of an integer are no exponent mark. -/
theorem Canonical.number_int (number : Int) :
    Canonical.number (.int number) = .ok (toString number) := by
  have unmarked : ((Text.ofString (toString number)).toList.any
      fun c => c = scalar 'e' || c = scalar 'E') = false := by
    have figure : ∀ c ∈ (Text.ofString (toString number)).toList,
        c.isDigit = true ∨ c = scalar '-' := by
      have digits (c : CodePoint) (member : c ∈ Text.digits 10 number.natAbs) :=
        plain_digits _ c member
      rw [toList_toString]
      split
      · exact List.forall_mem_cons.mpr ⟨.inr rfl, fun c member => .inl (digits c member)⟩
      · exact fun c member => .inl (digits c member)
    rw [List.any_eq_false]
    intro c member marked
    simp only [Bool.or_eq_true, decide_eq_true_eq] at marked
    rcases marked with rfl | rfl <;> exact absurd (figure _ member) (by decide)
  simp only [Canonical.number, Value.display, Value.plain, unmarked]
  rfl

end StyleExpr
