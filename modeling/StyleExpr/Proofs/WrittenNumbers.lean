import StyleExpr.Proofs.Expr.Spelled
import StyleExpr.Proofs.Source.Transcript

/-! Numbers that can be written survive it. The text of a number has no exponent, denotes what the display
of the number denotes, and is one token with the same value, of the same form. -/

namespace StyleExpr

open Lexeme

variable {value : Value} {text : List CodePoint} {d : Decimal} {unit : Option Text}

theorem Value.IsWritable.represents_display (writable : value.IsWritable)
    (written : Canonical.number value = .ok (Text.ofList text)) (numeral : Positional text d) :
    Represents value.display.toList d.quantity := by
  cases writable with
  | @int number short =>
    rw [Canonical.number_int] at written
    have shown : (Value.int number).display = Text.ofList text := Except.ok.inj written
    rw [shown, Text.toList_ofList]
    exact numeral.represents
  | float rank =>
    have shown : (Value.float (.finite false rank)).display.toList = Double.magnitude rank.val := by
      show (Double.display (.finite false rank)).toList = _
      rw [Double.display_finite, Text.toList_ofList, if_neg Bool.false_ne_true]
    -- the text has the digits at their places, and the display may have them with a power of ten
    have places : (Decimal.shortest rank).positional = text :=
      Text.ofList_inj.mp (Except.ok.inj written)
    have same := numeral.represents.unique (places ▸ (Decimal.shortest rank).represents_positional)
    rw [shown, same]
    exact Double.represents_magnitude rank

/-- A number from zero on, an integer that is not too long or a finite double, is written in digits with
at most a point among them. The text denotes one rational number, which is also the one that the display
of the number denotes. With a unit glued to it the text is one token, which carries the unit and the
number itself. -/
theorem written_number_survives (writable : value.IsWritable)
    (measured : ∀ text ∈ unit, IsUnit text.toList) (start : Position) :
    ∃ (text : Text) (quantity : Rat), Canonical.number value = .ok text ∧
      (∃ numeral, Positional text.toList numeral) ∧
      (∀ other, Represents text.toList other ↔ other = quantity) ∧
      (∀ other, Represents value.display.toList other ↔ other = quantity) ∧
      tokenize (text ++ unit.getD "") start = .ok [⟨.number, value, start, unit⟩] := by
  obtain ⟨text, d, written, numeral, reads⟩ := Expr.Spelled.reads_written writable measured
  have only {text : List CodePoint} (represents : Represents text d.quantity) (other : Rat) :
      Represents text other ↔ other = d.quantity :=
    ⟨fun others => others.unique represents, fun same => same ▸ represents⟩
  refine ⟨Text.ofList text, d.quantity, written, ?_, ?_, only (writable.represents_display written numeral),
    ?_⟩
  · rw [Text.toList_ofList]
    exact ⟨d, numeral⟩
  · rw [Text.toList_ofList]
    exact only numeral.represents
  · rw [tokenize_eq_ok_iff_tokenizes, Text.toList_append, Text.toList_ofList]
    have token : Tokenizes [] start (_ ++ []) _ := .token (reads [] breaks_nil) .finish
    rwa [List.append_nil] at token

/-- The rank of ten quadrillions, the least power of ten that is displayed with an exponent. -/
def tenQuadrillions : Fin Double.finiteCount :=
  ⟨Double.nearestRank (10 ^ 16) 1, by decide +kernel⟩

theorem written_number_survives_tenQuadrillions :
    (Value.float (.finite false tenQuadrillions)).display = "1e+16" ∧
      (Value.float (.finite false tenQuadrillions)).IsWritable ∧
      (∀ text ∈ some (Text.ofString "e"), IsUnit text.toList) ∧
      (∃ quantity, Represents (Text.ofString "10000000000000000.0").toList quantity ∧
        Represents (Text.ofString "1e+16").toList quantity) ∧
      tokenize "10000000000000000.0e" ⟨1, 1⟩ =
        .ok [⟨.number, .float (.finite false tenQuadrillions), ⟨1, 1⟩, some "e"⟩] := by
  have shown : (Value.float (.finite false tenQuadrillions)).display = "1e+16" := by decide +kernel
  have places : (Double.finite false tenQuadrillions).positional = "10000000000000000.0" := by
    decide +kernel
  have measured : ∀ text ∈ some (Text.ofString "e"), IsUnit text.toList := by
    rintro _ ⟨⟩
    exact .letters (by decide) (List.all_eq_true.mp (by decide))
  obtain ⟨text, quantity, written, -, denotes, displayed, tokenized⟩ :=
    written_number_survives (.float tenQuadrillions) measured ⟨1, 1⟩
  obtain rfl : text = "10000000000000000.0" := (Except.ok.inj written).symm.trans places
  rw [shown] at displayed
  exact ⟨shown, .float _, measured, ⟨quantity, (denotes _).mpr rfl, (displayed _).mpr rfl⟩, tokenized⟩

end StyleExpr
