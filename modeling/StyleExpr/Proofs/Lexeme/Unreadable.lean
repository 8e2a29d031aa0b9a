import StyleExpr.Proofs.Lexeme.Parted

/-! Numerals that are no numbers. A sign may count as a digit and yet have no place value, and an integer
may be too long. -/

namespace StyleExpr

namespace Numeral

open Text

variable {text whole part : List CodePoint}

theorem values?_eq_none_iff : values? text = none ↔ ∃ c ∈ text, decimalValue? c = none := by
  induction text with
  | nil => simp [values?]
  | cons c text ih =>
    rw [values?, List.mapM_cons]
    cases value : decimalValue? c with
    | none => simp [value]
    | some value =>
      rw [values?] at ih
      cases values : List.mapM decimalValue? text with
      | none => simpa [value, values] using ih
      | some values => simpa [value, values] using ih

theorem valuedLength_le (text : List CodePoint) : valuedLength text ≤ text.length :=
  (List.takeWhile_prefix _).length_le

theorem integer?_error_iff : (∃ cause, integer? text = .error cause) ↔
    (∃ c ∈ text, decimalValue? c = none) ∨ integerDigitLimit < text.length := by
  unfold integer?
  split
  · next long => exact iff_of_true ⟨_, rfl⟩ (.inr (Nat.lt_of_lt_of_le long (valuedLength_le text)))
  · next short =>
    cases values : values? text with
    | none => exact iff_of_true ⟨_, rfl⟩ (.inl (values?_eq_none_iff.mp values))
    | some numbers =>
      have valued : ¬ ∃ c ∈ text, decimalValue? c = none := by
        rw [← values?_eq_none_iff, values]
        exact Option.some_ne_none numbers
      rw [valuedLength_of_valued fun c member none => valued ⟨c, member, none⟩] at short
      simp [valued, short]

theorem double?_error_iff : (∃ cause, double? whole part = .error cause) ↔
    ∃ c ∈ whole ++ part, decimalValue? c = none := by
  rw [← values?_eq_none_iff, double?]
  cases values? (whole ++ part) <;> simp

end Numeral

namespace Lexeme

open Text

/-- A numeral that is no number: one of its signs has no place value, or it is an integer of too many
digits. -/
def Unreadable (digits : List CodePoint) : Prop :=
  (∃ c ∈ digits, c ≠ scalar '.' ∧ decimalValue? c = none) ∨
    scalar '.' ∉ digits ∧ integerDigitLimit < digits.length

variable {digits rest front : List CodePoint} {number : Except NumeralFault Value} {cause : NumeralFault}

theorem ne_point_of_run (each : Run isDigit digits) : ∀ c ∈ digits, c ≠ scalar '.' := by
  rintro c member rfl
  cases isDigit_point.symm.trans (each _ member)

theorem Denotes.error_iff (denotes : Denotes digits number) :
    (∃ cause, number = .error cause) ↔ Unreadable digits := by
  cases denotes with
  | whole nonempty each read =>
    have solid := ne_point_of_run each
    have pointless : scalar '.' ∉ digits := fun member => solid _ member rfl
    have same : (∃ cause, number = .error cause) ↔ ∃ cause, Numeral.integer? digits = .error cause := by
      rw [← read]
      cases Numeral.integer? digits <;> simp [Except.map, bind, Except.bind, pure, Except.pure]
    rw [same, Numeral.integer?_error_iff, Unreadable, and_iff_right pointless]
    apply or_congr_left
    exact exists_congr fun c => and_congr_right fun member => (and_iff_right (solid c member)).symm
  | @point digits part _ each nonempty behind read =>
    have solid := ne_point_of_run each
    have solid' := ne_point_of_run behind
    have same : (∃ cause, number = .error cause) ↔
        ∃ cause, Numeral.double? digits part = .error cause := by
      rw [← read]
      cases Numeral.double? digits part <;> simp [Except.map]
    rw [same, Numeral.double?_error_iff, Unreadable]
    constructor
    · rintro ⟨c, member, none⟩
      refine .inl ⟨c, ?_, ?_, none⟩
      · rcases List.mem_append.mp member with front | back
        · exact List.mem_append_left _ front
        · exact List.mem_append_right _ (List.mem_cons_of_mem _ back)
      · rcases List.mem_append.mp member with front | back
        · exact solid c front
        · exact solid' c back
    · rintro (⟨c, member, other, none⟩ | ⟨pointless, -⟩)
      · refine ⟨c, ?_, none⟩
        rcases List.mem_append.mp member with front | back
        · exact List.mem_append_left _ front
        · exact List.mem_append_right _ ((List.mem_cons.mp back).resolve_left other)
      · exact absurd (List.mem_append_right _ (List.mem_cons_self ..)) pointless

/-- In front of a text that begins with a numeral, a flaw is that of the numeral. -/
theorem Lexical.numeral_iff {text : List CodePoint} :
    (∃ front cause, Lexical text front (.error (.numeral cause))) ↔
      ∃ digits, Longest IsNumeral text digits ∧ Unreadable digits := by
  constructor
  · rintro ⟨front, cause, lexical⟩
    generalize given : Except.error (Flaw.numeral cause) = found at lexical
    cases lexical with
    | @number digits rest suffix number opens longest split unit denotes =>
      refine ⟨digits, longest, denotes.error_iff.mp ?_⟩
      cases number with
      | ok value => cases given
      | error cause => exact ⟨cause, rfl⟩
    | name | reference | quotation | unterminated | color | discolored | symbol | unexpected => cases given
  · rintro ⟨digits, longest, unreadable⟩
    obtain ⟨number, denotes⟩ := longest.formed
    obtain ⟨cause, rfl⟩ := denotes.error_iff.mpr unreadable
    obtain ⟨rest, rfl⟩ := longest.leads
    have unit := longest_unitChars rest
    exact ⟨_, cause, .number (denotes.opens rest) longest rfl unit denotes⟩

end Lexeme

end StyleExpr
