import StyleExpr.Proofs.Text.CodePoint

/-! Digits as code points, and the number that they write. -/

namespace StyleExpr

namespace Text

variable {base number digit : Nat}

theorem digits_of_lt_base (single : number < base) :
    Text.digits base number = [scalar number.digitChar] := by
  rw [Text.digits, Nat.toDigits_of_lt_base single, List.map_singleton]

theorem digits_of_base_le (radix : 1 < base) (more : base ≤ number) :
    Text.digits base number =
      Text.digits base (number / base) ++ [scalar (number % base).digitChar] := by
  rw [Text.digits, Nat.toDigits_of_base_le radix more, List.map_append, List.map_singleton,
    Text.digits]

theorem digits_append_digits (radix : 1 < base) (positive : 0 < number) (single : digit < base) :
    Text.digits base number ++ Text.digits base digit = Text.digits base (base * number + digit) := by
  rw [Text.digits, Text.digits, ← List.map_append,
    Nat.toDigits_append_toDigits radix positive single, Text.digits]

theorem digits_ne_nil : Text.digits base number ≠ [] := by
  rw [Text.digits, ne_eq, List.map_eq_nil_iff]
  exact Nat.toDigits_ne_nil

theorem length_digits_pos : 0 < (Text.digits base number).length :=
  List.length_pos_iff.mpr digits_ne_nil

theorem length_digits_le_iff {length : Nat} (radix : 1 < base) (positive : 0 < length) :
    (Text.digits base number).length ≤ length ↔ number < base ^ length := by
  rw [Text.digits, List.length_map, Nat.length_toDigits_le_iff radix positive]

theorem isDigit_of_mem_digits {c : CodePoint} (member : c ∈ Text.digits 10 number) :
    c.isDigit = true := by
  obtain ⟨digit, found, rfl⟩ := List.mem_map.mp member
  exact Nat.isDigit_of_mem_toDigits (by decide) (by decide) found

/-- The number that is written when digits follow those of a number. -/
def ofDigits (base : Nat) (digits : List CodePoint) (start : Nat) : Nat :=
  digits.foldl (fun number digit => base * number + (digit.toNat - 48)) start

variable {figures more : List CodePoint} {start : Nat}

@[simp] theorem ofDigits_nil : ofDigits base [] start = start := rfl

theorem ofDigits_cons {c : CodePoint} :
    ofDigits base (c :: figures) start = ofDigits base figures (base * start + (c.toNat - 48)) := by
  rw [ofDigits, List.foldl_cons, ofDigits]

theorem ofDigits_append :
    ofDigits base (figures ++ more) start = ofDigits base more (ofDigits base figures start) :=
  List.foldl_append

theorem ofDigits_cons_digitChar (single : digit < 10) :
    ofDigits base (scalar digit.digitChar :: figures) start =
      ofDigits base figures (base * start + digit) := by
  rw [ofDigits_cons, CodePoint.toNat, Nat.toNat_digitChar_of_lt_ten single, Nat.add_sub_cancel_left]

theorem ofDigits_replicate_zero (count : Nat) :
    ofDigits base (List.replicate count (scalar '0')) start = base ^ count * start := by
  rw [← List.map_replicate, ofDigits, List.foldl_map]
  exact Nat.ofDigitChars_replicate_zero

theorem ofDigits_digits : ofDigits 10 (Text.digits 10 number) 0 = number := by
  rw [Text.digits, ofDigits, List.foldl_map]
  exact Nat.ofDigitChars_ten_toDigits

end Text

end StyleExpr
