import StyleExpr.Proofs.Number.ReadBack

/-! The rational number that a numeral denotes, with or without a power of ten behind its digits. The
digits of a decimal at their places denote the decimal. -/

namespace StyleExpr

def Decimal.quantity (d : Decimal) : Rat :=
  mkRat d.ratio.1 d.ratio.2

/-- A numeral without exponent: digits, or digits on both sides of a point. -/
inductive Positional : List CodePoint → Decimal → Prop where
  | whole {digits : List CodePoint} (nonempty : digits ≠ []) (plain : Plain digits) :
      Positional digits ⟨Text.ofDigits 10 digits 0, 0⟩
  | point {whole part : List CodePoint} (wholeNonempty : whole ≠ []) (partNonempty : part ≠ [])
      (wholePlain : Plain whole) (partPlain : Plain part) :
      Positional (whole ++ scalar '.' :: part) ⟨Text.ofDigits 10 (whole ++ part) 0, -part.length⟩

/-- What may stand behind the digits of a numeral: nothing, or a power of ten with its sign. -/
inductive PowerOfTen : List CodePoint → Int → Prop where
  | none : PowerOfTen [] 0
  | up {digits : List CodePoint} (nonempty : digits ≠ []) (plain : Plain digits) :
      PowerOfTen (scalar 'e' :: scalar '+' :: digits) (Text.ofDigits 10 digits 0)
  | down {digits : List CodePoint} (nonempty : digits ≠ []) (plain : Plain digits) :
      PowerOfTen (scalar 'e' :: scalar '-' :: digits) (-(Text.ofDigits 10 digits 0))

/-- The text is a numeral for the rational number. -/
inductive Represents : List CodePoint → Rat → Prop where
  | numeral {mantissa tail : List CodePoint} {d : Decimal} {power : Int} (digits : Positional mantissa d)
      (scale : PowerOfTen tail power) :
      Represents (mantissa ++ tail) (Decimal.quantity ⟨d.digits, d.exponent + power⟩)

variable {text tail : List CodePoint} {d d' : Decimal} {power power' : Int} {quantity quantity' : Rat}

theorem Plain.ne_point (plain : Plain text) : ∀ c ∈ text, (c != scalar '.') = true :=
  fun c member => bne_iff_ne.mpr fun point => by simpa [point] using plain c member

theorem Positional.unique (first : Positional text d) (second : Positional text d') : d = d' := by
  cases first with
  | whole _ plain =>
    cases second with
    | whole => rfl
    | point => simpa using plain.ne_point (scalar '.') (List.mem_append_right _ (List.mem_cons_self ..))
  | point _ _ plain _ =>
    generalize same : (_ ++ _ : List CodePoint) = text at second
    cases second with
    | whole _ plain =>
      subst same
      simpa using plain.ne_point (scalar '.') (List.mem_append_right _ (List.mem_cons_self ..))
    | point _ _ plain' _ =>
      obtain ⟨rfl, behind⟩ :=
        append_inj_of_run plain.ne_point plain'.ne_point (by simp) (by simp) same
      rw [(List.cons.inj behind).2]

theorem Positional.isDigit_or_point (numeral : Positional text d) :
    ∀ c ∈ text, c.isDigit = true ∨ c = scalar '.' := by
  cases numeral with
  | whole _ plain => exact fun c member => .inl (plain c member)
  | point _ _ wholePlain partPlain =>
    refine List.forall_mem_append.mpr ⟨fun c member => .inl (wholePlain c member), ?_⟩
    exact List.forall_mem_cons.mpr ⟨.inr rfl, fun c member => .inl (partPlain c member)⟩

theorem Positional.ne_letter (numeral : Positional text d) : ∀ c ∈ text, (c != scalar 'e') = true := by
  intro c member
  rcases numeral.isDigit_or_point c member with digit | rfl
  · exact bne_iff_ne.mpr fun letter => by simp [letter] at digit
  · rfl

theorem PowerOfTen.letter (scale : PowerOfTen tail power) : ∀ c ∈ tail.head?, (c != scalar 'e') = false := by
  cases scale <;> simp

theorem PowerOfTen.unique (first : PowerOfTen tail power) (second : PowerOfTen tail power') :
    power = power' := by
  cases first <;> cases second <;> rfl

theorem Represents.unique (first : Represents text quantity) (second : Represents text quantity') :
    quantity = quantity' := by
  cases first with
  | numeral digits scale =>
    generalize same : (_ ++ _ : List CodePoint) = text at second
    cases second with
    | numeral digits' scale' =>
      obtain ⟨rfl, rfl⟩ :=
        append_inj_of_run digits.ne_letter digits'.ne_letter scale.letter scale'.letter same
      rw [digits.unique digits', scale.unique scale']

theorem Positional.represents (numeral : Positional text d) : Represents text d.quantity := by
  have represents := Represents.numeral numeral .none
  rwa [List.append_nil, Int.add_zero] at represents

namespace Decimal

theorem positional_positional (d : Decimal) : Positional d.positional
    ⟨Text.ofDigits 10 (d.wholeDigits ++ d.partDigits) 0, -d.partDigits.length⟩ :=
  .point d.wholeDigits_ne_nil d.partDigits_ne_nil d.plain_wholeDigits d.plain_partDigits

theorem represents_positional (d : Decimal) : Represents d.positional d.quantity := by
  have represents := d.positional_positional.represents
  have same : quantity ⟨Text.ofDigits 10 (d.wholeDigits ++ d.partDigits) 0, -d.partDigits.length⟩ =
      d.quantity := by
    rw [quantity, quantity, ratio_places,
      Rat.mkRat_eq_iff (Nat.ne_of_gt (Nat.pow_pos (by decide))) (Nat.ne_of_gt d.ratio_pos)]
    exact_mod_cast d.ratio_positional
  rwa [same] at represents

end Decimal

end StyleExpr
