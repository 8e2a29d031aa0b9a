import StyleExpr.Proofs.Json.Layout
import StyleExpr.Proofs.WrittenNumbers

/-! A number with a unit glued to it, as displays show it. The unit begins where the digits end, and what
may look like the exponent of a number is one only if a sign stands behind its letter. -/

namespace StyleExpr

open Lexeme

variable {text text' tail tail' suffix suffix' rest : List CodePoint} {quantity quantity' : Rat}
  {power power' : Int}

theorem Represents.digitFirst (represents : Represents text quantity) : DigitFirst text := by
  cases represents with
  | numeral digits _ =>
    cases digits with
    | whole nonempty plain => exact plain.digitFirst nonempty _
    | point nonempty _ plain _ =>
      rw [List.append_assoc]
      exact plain.digitFirst nonempty _

theorem PowerOfTen.isFigure (scale : PowerOfTen tail power) : ∀ c ∈ tail, Decimal.IsFigure c := by
  cases scale with
  | none => simp
  | up _ plain | down _ plain =>
    refine List.forall_mem_cons.mpr ⟨.inr (by decide), List.forall_mem_cons.mpr ⟨.inr (by decide), ?_⟩⟩
    exact fun c member => .inl (plain c member)

theorem Represents.isFigure (represents : Represents text quantity) :
    ∀ c ∈ text, Decimal.IsFigure c := by
  cases represents with
  | numeral digits scale =>
    refine List.forall_mem_append.mpr ⟨fun c member => ?_, scale.isFigure⟩
    rcases digits.isDigit_or_point c member with digit | rfl
    · exact .inl digit
    · exact .inr (by decide)

/-- An exponent mark of a number has a sign behind it, one of a unit has not. -/
theorem unit_ne_power {sign : CodePoint} (measured : suffix = [] ∨ IsUnit suffix)
    (signed : Text.isLetter sign = false) : suffix ≠ scalar 'e' :: sign :: rest := by
  rintro rfl
  rcases measured with none | percent | ⟨-, each⟩
  · cases none
  · rw [each sign (by simp)] at signed
    cases signed

theorem PowerOfTen.unit_inj (scale : PowerOfTen tail power) (scale' : PowerOfTen tail' power')
    (measured : suffix = [] ∨ IsUnit suffix) (measured' : suffix' = [] ∨ IsUnit suffix')
    (same : tail ++ suffix = tail' ++ suffix') : tail = tail' ∧ suffix = suffix' := by
  have ended {suffix : List CodePoint} (measured : suffix = [] ∨ IsUnit suffix) :
      ∀ c ∈ suffix.head?, Text.isDigit c = false := by
    have stops := suffix_stops measured breaks_nil
    rw [List.append_nil] at stops
    exact fun c next => (stops c next).1
  have digits {digits digits' : List CodePoint} (plain : Plain digits) (plain' : Plain digits')
      (same : digits ++ suffix = digits' ++ suffix') : digits = digits' ∧ suffix = suffix' :=
    append_inj_of_run (Text.isDigit_of_plain plain) (Text.isDigit_of_plain plain') (ended measured)
      (ended measured') same
  cases scale with
  | none =>
    cases scale' with
    | none => exact ⟨rfl, same⟩
    | up => exact (unit_ne_power measured (by decide) same).elim
    | down => exact (unit_ne_power measured (by decide) same).elim
  | up _ plain =>
    cases scale' with
    | none => exact (unit_ne_power measured' (by decide) same.symm).elim
    | up _ plain' =>
      obtain ⟨rfl, rfl⟩ := digits plain plain' (List.cons.inj (List.cons.inj same).2).2
      exact ⟨rfl, rfl⟩
    | down => cases (List.cons.inj (List.cons.inj same).2).1
  | down _ plain =>
    cases scale' with
    | none => exact (unit_ne_power measured' (by decide) same.symm).elim
    | up => cases (List.cons.inj (List.cons.inj same).2).1
    | down _ plain' =>
      obtain ⟨rfl, rfl⟩ := digits plain plain' (List.cons.inj (List.cons.inj same).2).2
      exact ⟨rfl, rfl⟩

theorem Represents.unit_inj (first : Represents text quantity) (second : Represents text' quantity')
    (measured : suffix = [] ∨ IsUnit suffix) (measured' : suffix' = [] ∨ IsUnit suffix')
    (same : text ++ suffix = text' ++ suffix') : text = text' ∧ suffix = suffix' := by
  have stops {tail suffix : List CodePoint} {power : Int} (scale : PowerOfTen tail power)
      (measured : suffix = [] ∨ IsUnit suffix) :
      ∀ c ∈ (tail ++ suffix).head?, (Text.isDigit c || c == scalar '.') = false := by
    cases scale with
    | none =>
      intro c next
      have stops := suffix_stops measured breaks_nil
      rw [List.append_nil] at stops
      simp [stops c next]
    | up | down =>
      rintro c ⟨⟩
      decide
  cases first with
  | numeral digits scale =>
    cases second with
    | numeral digits' scale' =>
      have run {mantissa : List CodePoint} {d : Decimal} (digits : Positional mantissa d) :
          ∀ c ∈ mantissa, (Text.isDigit c || c == scalar '.') = true := by
        intro c member
        rcases digits.isDigit_or_point c member with digit | rfl
        · simp [Text.isDigit_of_decimalValue? (Text.decimalValue?_of_isDigit digit)]
        · rfl
      rw [List.append_assoc, List.append_assoc] at same
      obtain ⟨rfl, behind⟩ := append_inj_of_run (run digits) (run digits') (stops scale measured)
        (stops scale' measured') same
      obtain ⟨rfl, rfl⟩ := scale.unit_inj scale' measured measured' behind
      exact ⟨rfl, rfl⟩

/-- The written numbers from zero on are numerals. -/
theorem Value.IsWritable.exists_represents {value : Value} (writable : value.IsWritable) :
    ∃ quantity, Represents value.display.toList quantity := by
  have bare : ∀ text ∈ (none : Option Text), IsUnit text.toList := by simp
  obtain ⟨text, d, written, numeral, -⟩ := Expr.Spelled.reads_written writable bare
  exact ⟨_, writable.represents_display written numeral⟩

/-- An integer has no mark in its display, a double has one. -/
theorem Value.IsWritable.display_injective {value value' : Value} (writable : value.IsWritable)
    (writable' : value'.IsWritable) (same : value.display = value'.display) : value = value' := by
  have apart {number : Nat} {rank : Fin Double.finiteCount}
      (same : (Value.int number).display = (Value.float (.finite false rank)).display) : False := by
    obtain ⟨c, member, mark⟩ := Double.exists_mark_mem_magnitude rank
    have shown : Text.ofString (toString (number : Int)) = (Double.finite false rank).display := same
    rw [ofString_toString, Double.display_finite, if_neg Bool.false_ne_true] at shown
    have plain : Text.digits 10 number = Double.magnitude rank := Text.ofList_inj.mp shown
    have digit := plain_digits number c (plain ▸ member)
    rcases mark with rfl | rfl <;> cases digit
  cases writable with
  | int =>
    cases writable' with
    | int => exact congrArg Value.int (JsonValue.toString_injective same)
    | float => exact (apart same).elim
  | float =>
    cases writable' with
    | int => exact (apart same.symm).elim
    | float => exact congrArg Value.float (Double.display_finite_injective same)

/-- A number that was read and its unit are told by what is displayed of them. -/
theorem Value.IsReadable.unit_inj {value value' : Value} {unit unit' : Option Text}
    (readable : value.IsReadable) (readable' : value'.IsReadable)
    (measured : ∀ text ∈ unit, IsUnit text.toList) (measured' : ∀ text ∈ unit', IsUnit text.toList)
    (same : value.display ++ unit.getD "" = value'.display ++ unit'.getD "") :
    value = value' ∧ unit = unit' := by
  have suffixed := Expr.Spelled.measured_suffix measured
  have suffixed' := Expr.Spelled.measured_suffix measured'
  have units (same : (unit.getD "").toList = (unit'.getD "").toList) : unit = unit' := by
    rw [← Expr.Spelled.unit?_suffix measured [] [], same, Expr.Spelled.unit?_suffix measured']
  have apart {value : Value} {suffix suffix' : List CodePoint} (writable : value.IsWritable)
      (same : value.display.toList ++ suffix = (Text.ofString "inf").toList ++ suffix') : False := by
    obtain ⟨quantity, represents⟩ := writable.exists_represents
    obtain ⟨c, behind, split, digit⟩ := represents.digitFirst
    rw [split] at same
    obtain ⟨rfl, -⟩ := List.cons.inj same
    cases digit
  have chars := congrArg Text.toList same
  rw [Text.toList_append, Text.toList_append] at chars
  cases readable with
  | writable writable =>
    cases readable' with
    | writable writable' =>
      obtain ⟨quantity, represents⟩ := writable.exists_represents
      obtain ⟨quantity', represents'⟩ := writable'.exists_represents
      obtain ⟨numbers, suffixes⟩ := represents.unit_inj represents' suffixed suffixed' chars
      exact ⟨writable.display_injective writable' (Text.toList_inj.mp numbers), units suffixes⟩
    | infinite => exact (apart writable chars).elim
  | infinite =>
    cases readable' with
    | writable writable' => exact (apart writable' chars.symm).elim
    | infinite => exact ⟨rfl, units (List.append_cancel_left chars)⟩

end StyleExpr
