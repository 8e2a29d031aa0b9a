import StyleExpr.Number.Decimal
import StyleExpr.Number.Numeral
import StyleExpr.Proofs.Text.Classes
import StyleExpr.Proofs.Text.Digits

/-! Written numbers read back: an integer from its digits, and a finite number from the digits that
stand for it at their places. -/

namespace StyleExpr

def Plain (text : List CodePoint) : Prop :=
  ∀ c ∈ text, c.isDigit = true

namespace Text

theorem decimalValue?_of_isDigit {c : CodePoint} (digit : c.isDigit = true) :
    decimalValue? c = some (c.toNat - 48) := by
  obtain ⟨low, high⟩ := CodePoint.isDigit_iff.mp digit
  have ascii : c.toNat < 128 := by omega
  simp [decimalValue?, ascii, low, high]

theorem isDigit_of_plain {text : List CodePoint} (plain : Plain text) : ∀ c ∈ text, isDigit c = true :=
  fun c member => isDigit_of_decimalValue? (decimalValue?_of_isDigit (plain c member))

end Text

theorem Plain.append {front back : List CodePoint} (first : Plain front) (second : Plain back) :
    Plain (front ++ back) := by
  intro c member
  rcases List.mem_append.mp member with member | member
  · exact first c member
  · exact second c member

theorem plain_digits (number : Nat) : Plain (Text.digits 10 number) :=
  fun _ => Text.isDigit_of_mem_digits

theorem toList_toString (number : Int) :
    (Text.ofString (toString number)).toList =
      if decide (number < 0) then scalar '-' :: Text.digits 10 number.natAbs
      else Text.digits 10 number.natAbs := by
  rw [Int.toString_eq_repr, Int.repr_eq_if]
  by_cases negative : number < 0
  · have size : (-number).toNat = number.natAbs := by omega
    simp [negative, Int.not_le.mpr negative, size, Text.digits, Nat.toList_repr]
  · have size : number.toNat = number.natAbs := by omega
    simp [negative, Int.not_lt.mp negative, size, Text.digits, Nat.toList_repr]

theorem ofString_toString (number : Nat) :
    Text.ofString (toString (number : Int)) = Text.ofList (Text.digits 10 number) := by
  rw [← Text.toList_inj, toList_toString, Int.natAbs_natCast]
  simp

/-- Digits without a zero that could be left out in front of them. -/
structure Trimmed (digits : List CodePoint) : Prop where
  nonempty : digits ≠ []
  plain : Plain digits
  leading : ∀ rest, digits = scalar '0' :: rest → rest = []

theorem exists_digitChar {c : CodePoint} (digit : c.isDigit = true) :
    ∃ value < 10, c = scalar (Nat.digitChar value) := by
  obtain ⟨low, high⟩ := CodePoint.isDigit_iff.mp digit
  cases c with
  | surrogate index => cases digit
  | scalar c =>
    rw [CodePoint.toNat] at low high
    refine ⟨c.toNat - 48, by omega, congrArg scalar (Char.toNat_inj.mp ?_)⟩
    rw [Nat.toNat_digitChar_of_lt_ten (by omega)]
    omega

/-- Digits behind those of a positive number go on writing it. -/
theorem digits_append_plain {number : Nat} {digits : List CodePoint} (positive : 0 < number)
    (plain : Plain digits) :
    Text.digits 10 number ++ digits = Text.digits 10 (Text.ofDigits 10 digits number) := by
  induction digits generalizing number with
  | nil => rw [List.append_nil, Text.ofDigits_nil]
  | cons c digits ih =>
    obtain ⟨digit, others⟩ := List.forall_mem_cons.mp plain
    obtain ⟨value, small, rfl⟩ := exists_digitChar digit
    have one := Text.digits_append_digits (by decide) positive small
    rw [Text.digits_of_lt_base small] at one
    rw [Text.ofDigits_cons_digitChar small, ← ih (by omega) others, ← one,
      List.append_assoc, List.singleton_append]

/-- Trimmed digits are those of the number that they write. -/
theorem Trimmed.digits_eq {digits : List CodePoint} (trimmed : Trimmed digits) :
    Text.digits 10 (Text.ofDigits 10 digits 0) = digits := by
  obtain ⟨nonempty, plain, leading⟩ := trimmed
  obtain ⟨c, rest, rfl⟩ := List.exists_cons_of_ne_nil nonempty
  obtain ⟨digit, others⟩ := List.forall_mem_cons.mp plain
  obtain ⟨value, small, rfl⟩ := exists_digitChar digit
  rw [Text.ofDigits_cons_digitChar small, Nat.mul_zero, Nat.zero_add]
  rcases Nat.eq_zero_or_pos value with rfl | positive
  · rw [leading rest rfl]
    rfl
  · rw [← digits_append_plain positive others, Text.digits_of_lt_base small, List.singleton_append]

theorem plain_zeros (count : Nat) : Plain (List.replicate count (scalar '0')) := by
  intro c member
  rw [List.eq_of_mem_replicate member]
  rfl

namespace Numeral

theorem values?_plain {text : List CodePoint} (plain : Plain text) :
    values? text = some (text.map fun c => c.toNat - 48) := by
  unfold values?
  induction text with
  | nil => rfl
  | cons c text ih =>
    have digit := Text.decimalValue?_of_isDigit (plain c (List.mem_cons_self ..))
    have others := ih fun c member => plain c (List.mem_cons_of_mem _ member)
    simp [digit, others]

theorem ofValues_plain (text : List CodePoint) :
    ofValues (text.map fun c => c.toNat - 48) = Text.ofDigits 10 text 0 := by
  rw [ofValues, List.foldl_map, Text.ofDigits]

theorem valuedLength_of_valued {text : List CodePoint} (valued : ∀ c ∈ text, Text.decimalValue? c ≠ none) :
    valuedLength text = text.length := by
  have every : (text ++ []).takeWhile (fun c => (Text.decimalValue? c).isSome) = text :=
    takeWhile_run (fun c member => Option.isSome_iff_ne_none.mpr (valued c member)) (by simp)
  rw [List.append_nil] at every
  rw [valuedLength, every]

theorem valuedLength_plain {text : List CodePoint} (plain : Plain text) :
    valuedLength text = text.length := by
  apply valuedLength_of_valued
  intro c member
  rw [Text.decimalValue?_of_isDigit (plain c member)]
  exact Option.some_ne_none _

theorem eq_of_integer? {text : List CodePoint} {number : Nat} (plain : Plain text)
    (read : integer? text = .ok number) : number = Text.ofDigits 10 text 0 := by
  rw [integer?, values?_plain plain] at read
  split at read
  · cases read
  · rw [← Except.ok.inj read, ofValues_plain]

theorem integer?_digits {number : Nat} (short : number < 10 ^ integerDigitLimit) :
    integer? (Text.digits 10 number) = .ok number := by
  have plain := plain_digits number
  have length : (Text.digits 10 number).length ≤ integerDigitLimit :=
    (Text.length_digits_le_iff (by decide) (by decide)).mpr short
  rw [integer?, valuedLength_plain plain, if_neg (Nat.not_lt.mpr length), values?_plain plain]
  simp only [ofValues_plain, Text.ofDigits_digits]

theorem double?_plain {whole part : List CodePoint} (first : Plain whole) (second : Plain part) :
    double? whole part =
      .ok (Double.ofRatio false (Text.ofDigits 10 (whole ++ part) 0) (10 ^ part.length)) := by
  rw [double?, values?_plain (first.append second)]
  simp only [ofValues_plain]

end Numeral

namespace Decimal

variable (d : Decimal)

theorem figures_pos : 0 < d.figures.length :=
  Text.length_digits_pos

theorem plain_wholeDigits : Plain d.wholeDigits := by
  unfold wholeDigits
  split
  · exact plain_zeros 1
  · apply Plain.append _ (plain_zeros _)
    exact fun c member => plain_digits _ c (List.mem_of_mem_take member)

theorem plain_partDigits : Plain d.partDigits := by
  unfold partDigits
  split
  · exact plain_zeros 1
  · apply Plain.append (plain_zeros _)
    exact fun c member => plain_digits _ c (List.mem_of_mem_drop member)

theorem wholeDigits_ne_nil : d.wholeDigits ≠ [] := by
  unfold wholeDigits
  split
  · exact List.cons_ne_nil _ _
  · next inside =>
    have some := d.figures_pos
    apply List.append_ne_nil_of_left_ne_nil
    intro none
    rcases List.take_eq_nil_iff.mp none with zero | empty
    · omega
    · rw [empty] at some
      cases some

theorem partDigits_ne_nil : d.partDigits ≠ [] := by
  unfold partDigits
  split
  · exact List.cons_ne_nil _ _
  · next inside =>
    intro none
    have length := congrArg List.length none
    simp at length
    omega

theorem ratio_pos : 0 < d.ratio.2 := by
  unfold ratio
  split
  · exact Nat.one_pos
  · exact Nat.pow_pos (by decide)

theorem ratio_positional : Text.ofDigits 10 (d.wholeDigits ++ d.partDigits) 0 * d.ratio.2 =
    d.ratio.1 * 10 ^ d.partDigits.length := by
  have written : Text.ofDigits 10 d.figures 0 = d.digits := Text.ofDigits_digits
  have some := d.figures_pos
  have place : d.point = d.exponent + d.figures.length := rfl
  by_cases large : d.figures.length ≤ d.point
  · -- all figures stand in front of the point, and zeros behind them
    have inside : ¬ d.point ≤ 0 := by omega
    have all : d.figures.take d.point.toNat = d.figures := List.take_of_length_le (by omega)
    have whole : d.wholeDigits = d.figures ++ List.replicate d.exponent.toNat (scalar '0') := by
      rw [wholeDigits, if_neg inside, all, show d.point.toNat - d.figures.length = d.exponent.toNat by
        omega]
    have part : d.partDigits = [scalar '0'] := by rw [partDigits, if_pos large]
    have up : 0 ≤ d.exponent := by omega
    rw [ratio, if_pos up, whole, part, Text.ofDigits_append, Text.ofDigits_append, written,
      Text.ofDigits_replicate_zero]
    simp [Text.ofDigits_cons, Nat.mul_comm]
  · have down : ¬ 0 ≤ d.exponent := by omega
    have digits : Text.ofDigits 10 (d.wholeDigits ++ d.partDigits) 0 = d.digits := by
      rw [wholeDigits, partDigits, if_neg large]
      by_cases small : d.point ≤ 0
      · rw [if_pos small, show d.point.toNat = 0 by omega, List.drop_zero]
        simp [Text.ofDigits_cons, Text.ofDigits_append, Text.ofDigits_replicate_zero, written]
      · rw [if_neg small, show (-d.point).toNat = 0 by omega,
          show d.point.toNat - d.figures.length = 0 by omega]
        simpa using written
    have places : d.partDigits.length = (-d.exponent).toNat := by
      rw [partDigits, if_neg large]
      simp
      omega
    rw [ratio, if_neg down, digits, places]

/-- The digits at their places round as the decimal does. -/
theorem rank_positional :
    Double.nearestRank (Text.ofDigits 10 (d.wholeDigits ++ d.partDigits) 0)
      (10 ^ d.partDigits.length) = d.rank := by
  rw [rank, ← Double.nearestRank_mul d.ratio.2 _ _ d.ratio_pos, Nat.mul_comm d.ratio.2,
    d.ratio_positional, Nat.mul_comm d.ratio.1, Nat.mul_comm d.ratio.2,
    Double.nearestRank_mul _ _ _ (Nat.pow_pos (by decide))]

end Decimal

namespace Double

theorem double?_shortest (rank : Fin finiteCount) :
    Numeral.double? (Decimal.shortest rank).wholeDigits (Decimal.shortest rank).partDigits =
      .ok (.finite false rank) := by
  have read := (Decimal.shortest rank).rank_positional
  rw [Decimal.shortest_rank] at read
  rw [Numeral.double?_plain (Decimal.plain_wholeDigits _) (Decimal.plain_partDigits _)]
  simp only [ofRatio, read, rank.isLt, ↓reduceDIte]

end Double

end StyleExpr
