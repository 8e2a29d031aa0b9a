import StyleExpr.Json.Basic
import StyleExpr.Proofs.Text.Escapes
import StyleExpr.Proofs.Text.Units

/-! JSON texts read back. Each unit is read off its escape, whatever comes behind that, so a quoted text
tells both the units of its content and where it ends. -/

namespace StyleExpr

namespace Text

theorem hexadecimal_four {n : Nat} (small : n < 0x10000) :
    hexadecimal 4 n =
      [scalar (n / 16 / 16 / 16).digitChar, scalar (n / 16 / 16 % 16).digitChar,
        scalar (n / 16 % 16).digitChar, scalar (n % 16).digitChar] := by
  have first : n / 16 / 16 / 16 < 16 := by omega
  rw [hexadecimal_succ (by decide), hexadecimal_succ (by decide), hexadecimal_succ (by decide),
    hexadecimal, Text.digits_of_lt_base first]
  rfl

end Text

namespace JsonValue

def marked? : CodePoint → Option CodePoint
  | scalar '\x22' => some (scalar '\x22')
  | scalar '\\' => some (scalar '\\')
  | scalar 'n' => some (scalar '\n')
  | scalar 'r' => some (scalar '\r')
  | scalar 't' => some (scalar '\t')
  | scalar 'f' => some (scalar '\x0c')
  | scalar 'b' => some (scalar '\x08')
  | _ => none

def readCode : List CodePoint → Option (Nat × List CodePoint)
  | a :: b :: c :: d :: rest => do
    let digits ← [a, b, c, d].mapM Text.hexValue?
    return (digits.foldl (fun code digit => 16 * code + digit) 0, rest)
  | _ => none

/-- Reads a unit from the front of a JSON text. -/
def readChar : List CodePoint → Option (CodePoint × List CodePoint)
  | scalar '\\' :: scalar 'u' :: rest => do
    let (code, rest) ← readCode rest
    return (CodePoint.ofNat code, rest)
  | scalar '\\' :: mark :: rest => (marked? mark).map (·, rest)
  | c :: rest => some (c, rest)
  | [] => none

theorem readCode_hexadecimal {code : Nat} (small : code < 0x10000) (rest : List CodePoint) :
    readCode (Text.hexadecimal 4 code ++ rest) = some (code, rest) := by
  have value (n : Nat) (small : n < 16) := (Lexeme.hexDigits n small).1
  have whole : 16 * (16 * (16 * (code / 16 / 16 / 16) + code / 16 / 16 % 16) + code / 16 % 16) +
      code % 16 = code := by omega
  rw [Text.hexadecimal_four small]
  simp [readCode, value _ (show code / 16 / 16 / 16 < 16 by omega),
    value _ (Nat.mod_lt _ (by decide)), whole]

variable {c : CodePoint}

theorem codeEscape_short (short : c.toNat < 0x10000) :
    codeEscape c = scalar '\\' :: scalar 'u' :: Text.hexadecimal 4 c.toNat := by
  simp only [codeEscape, short, ↓reduceIte]

/-- The escape of a character above `0xFFFF` is that of its surrogates. -/
theorem codeEscape_long (long : ¬ c.toNat < 0x10000) :
    codeEscape c = codeEscape c.high ++ codeEscape c.low := by
  rw [codeEscape_short c.isHigh_high.short, codeEscape_short c.isLow_low.short, c.toNat_high,
    c.toNat_low]
  simp only [codeEscape, long, ↓reduceIte]

theorem readChar_codeEscape (short : c.toNat < 0x10000) (rest : List CodePoint) :
    readChar (codeEscape c ++ rest) = some (c, rest) := by
  rw [codeEscape_short short]
  simp only [List.cons_append, readChar, readCode_hexadecimal short, Option.bind_eq_bind,
    Option.bind_some, Option.pure_def, CodePoint.ofNat_toNat]

theorem readChar_escapedChar (short : c.toNat < 0x10000) (rest : List CodePoint) :
    readChar (escapedChar c ++ rest) = some (c, rest) := by
  unfold escapedChar
  split
  · next mark => rw [mark]; rfl
  split
  · next mark => rw [mark]; rfl
  split
  · next mark => rw [mark]; rfl
  split
  · next mark => rw [mark]; rfl
  split
  · next mark => rw [mark]; rfl
  split
  · next mark => rw [mark]; rfl
  split
  · next mark => rw [mark]; rfl
  split
  · next slash _ _ _ _ _ _ =>
    rw [List.singleton_append, readChar.eq_3]
    · exact fun _ same _ => slash same
    · exact fun _ _ same _ => slash same
  · exact readChar_codeEscape short rest

/-- All but ASCII is written by its code. -/
theorem escapedChar_of_foreign (foreign : 127 ≤ c.toNat) : escapedChar c = codeEscape c := by
  have other (d : Char) (ascii : d.toNat < 127) : ¬ c = scalar d := by
    rintro rfl
    exact absurd foreign (Nat.not_le.mpr ascii)
  simp only [escapedChar, other _ (show '\x22'.toNat < 127 by decide),
    other _ (show '\\'.toNat < 127 by decide), other _ (show '\n'.toNat < 127 by decide),
    other _ (show '\r'.toNat < 127 by decide), other _ (show '\t'.toNat < 127 by decide),
    other _ (show '\x0c'.toNat < 127 by decide), other _ (show '\x08'.toNat < 127 by decide),
    Nat.not_lt.mpr foreign, decide_false, Bool.and_false, Bool.false_eq_true, ↓reduceIte]

theorem escapedChar_units (c : CodePoint) : c.units.flatMap escapedChar = escapedChar c := by
  by_cases short : c.toNat < 0x10000
  · rw [CodePoint.units_short short, List.flatMap_singleton]
  · rw [CodePoint.units_long short, escapedChar_of_foreign (by omega), codeEscape_long short,
      List.flatMap_cons, List.flatMap_singleton,
      escapedChar_of_foreign (Nat.le_trans (by decide) c.isHigh_high.1),
      escapedChar_of_foreign (Nat.le_trans (by decide) c.isLow_low.1)]

/-- No escape begins as a quoted text ends. -/
theorem escapedChar_opens (c : CodePoint) (rest rest' : List CodePoint) :
    escapedChar c ++ rest ≠ scalar '\x22' :: rest' := by
  intro same
  by_cases short : c.toNat < 0x10000
  · have read := readChar_escapedChar short rest
    rw [same] at read
    obtain ⟨rfl, rfl⟩ := Prod.mk.inj (Option.some.inj read)
    cases same
  · rw [escapedChar_of_foreign (by omega), codeEscape_long short,
      codeEscape_short c.isHigh_high.short] at same
    cases same

theorem quoted_inUnits (content : Text) : quoted content.inUnits = quoted content := by
  have escapes : (content.toList.flatMap CodePoint.units).flatMap escapedChar =
      content.toList.flatMap escapedChar := by
    rw [List.flatMap_assoc]
    simp only [escapedChar_units]
  rw [quoted, quoted, Text.inUnits, Text.toList_ofList, escapes]

variable {rest rest' : List CodePoint}

theorem quoted_append_inj {content content' : Text}
    (same : (quoted content).toList ++ rest = (quoted content').toList ++ rest') :
    content.inUnits = content'.inUnits ∧ rest = rest' := by
  rw [← quoted_inUnits content, ← quoted_inUnits content'] at same
  simp only [quoted, Text.inUnits, Text.toList_ofList, List.append_assoc, List.cons_append,
    List.nil_append, List.cons.injEq, true_and] at same
  have reads : ∀ c ∈ content.toList.flatMap CodePoint.units ++ content'.toList.flatMap CodePoint.units,
      ∀ rest, readChar (escapedChar c ++ rest) = some (c, rest) := by
    intro c member
    rcases List.mem_append.mp member with member | member
    all_goals
      obtain ⟨d, _, unit⟩ := List.mem_flatMap.mp member
      exact readChar_escapedChar (CodePoint.short_of_mem_units unit)
  obtain ⟨units, rfl⟩ := Text.escapes_append_inj reads escapedChar_opens same
  exact ⟨congrArg Text.ofList units, rfl⟩

end JsonValue

end StyleExpr
