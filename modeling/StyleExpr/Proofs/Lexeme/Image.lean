import Mathlib.Tactic.FinCases
import StyleExpr.Proofs.Expr.WellFormed

/-! What scanning can give: words, names, numbers, colours and truth values as well-formed trees hold
them. A numeral with a point may stand for an infinite number, and nothing else goes wrong. -/

namespace StyleExpr

open Text

namespace Numeral

variable {text : List CodePoint} {values : List Nat}

theorem values?_cons {c : CodePoint} (found : values? (c :: text) = some values) :
    ∃ value others, values = value :: others ∧ decimalValue? c = some value ∧
      values? text = some others := by
  simp only [values?, List.mapM_cons, Option.bind_eq_bind, Option.bind_eq_some_iff, Option.pure_def,
    Option.some.injEq] at found
  obtain ⟨value, first, others, rest, rfl⟩ := found
  exact ⟨value, others, rfl, first, rest⟩

theorem foldl_values_lt (found : values? text = some values) (start : Nat) :
    values.foldl (fun number value => 10 * number + value) start <
      (start + 1) * 10 ^ text.length := by
  induction text generalizing values start with
  | nil =>
    cases found
    simp
  | cons c text ih =>
    obtain ⟨value, others, rfl, first, rest⟩ := values?_cons found
    have below := decimalValue?_lt first
    have step := ih rest (10 * start + value)
    rw [List.foldl_cons, List.length_cons, Nat.pow_succ, Nat.mul_comm (10 ^ text.length),
      ← Nat.mul_assoc]
    exact Nat.lt_of_lt_of_le step (Nat.mul_le_mul_right _ (by omega))

theorem valuedLength_of_values? (found : values? text = some values) :
    valuedLength text = text.length := by
  induction text generalizing values with
  | nil => rfl
  | cons c text ih =>
    obtain ⟨value, others, rfl, first, rest⟩ := values?_cons found
    have shorter := ih rest
    rw [valuedLength] at shorter ⊢
    simp [first, shorter]

theorem integer?_lt {number : Nat} (found : integer? text = .ok number) :
    number < 10 ^ integerDigitLimit := by
  unfold integer? at found
  split at found
  · cases found
  · next short =>
    cases read : values? text with
    | none =>
      rw [read] at found
      cases found
    | some values =>
      rw [read] at found
      obtain rfl := Except.ok.inj found
      rw [valuedLength_of_values? read] at short
      have bounded := foldl_values_lt read 0
      rw [Nat.zero_add, Nat.one_mul] at bounded
      exact Nat.lt_of_lt_of_le bounded (Nat.pow_le_pow_right (by decide) (Nat.not_lt.mp short))

/-- A numeral with a point is never negative and never undefined. -/
theorem double?_readable {whole part : List CodePoint} {number : Double}
    (found : double? whole part = .ok number) : (Value.float number).IsReadable := by
  unfold double? at found
  cases read : values? (whole ++ part) with
  | none =>
    rw [read] at found
    cases found
  | some values =>
    rw [read] at found
    obtain rfl := Except.ok.inj found
    simp only [Double.ofRatio]
    split
    · exact .writable (.float _)
    · exact .infinite

end Numeral

namespace Lexeme

variable {lexeme : Lexeme} {numbers : Value → Prop}

theorem kind_of_spelled {text : List CodePoint} {kind : TokenKind} (spelled : spelled? text = some kind) :
    kind ∉ [.identifier, .reference, .string, .number, .color, .bool] := by
  unfold spelled? at spelled
  split at spelled <;> cases spelled <;> decide

theorem sound_of_kind
    (other : lexeme.kind ∉ [.identifier, .reference, .string, .number, .color, .bool]) :
    lexeme.Sound numbers := by
  obtain ⟨kind, value, unit⟩ := lexeme
  cases kind <;> first | trivial | simp at other

theorem isColor_of_named {name : Text} {channels : List Int}
    (found : namedColor? name = some channels) : (Value.tuple channels).IsColor := by
  have every : ∀ entry ∈ namedColors, (Value.tuple entry.2).IsColor := by
    intro entry member
    fin_cases member <;> exact .channels (by decide) (by decide) (by decide)
  obtain ⟨front, rest, split, -⟩ := List.lookup_eq_some_iff.mp found
  exact every (name, channels) (by simp [split])

theorem ofName_keyword {name : List CodePoint} {kind : TokenKind} (keyword : spelled? name = some kind) :
    ofName name = ⟨kind, .text (Text.ofList name), none⟩ := by
  simp only [ofName, keyword]

theorem ofName_word {name : Text} (word : IsWord name) :
    ofName name.toList = ⟨.identifier, .text name, none⟩ := by
  simp only [ofName, word.keyword, Text.ofList_toList, word.truth, word.color]

theorem sound_ofName {name : List CodePoint} (named : IsName name) : (ofName name).Sound numbers := by
  cases keyword : spelled? name with
  | some kind =>
    rw [ofName_keyword keyword]
    exact sound_of_kind (kind_of_spelled keyword)
  | none =>
    simp only [ofName, keyword]
    cases truth : truthWord? (Text.ofList name) with
    | some value => exact ⟨⟨value, rfl⟩, rfl⟩
    | none =>
      cases color : namedColor? (Text.ofList name) with
      | some channels => exact ⟨isColor_of_named color, rfl⟩
      | none =>
        have word : IsWord (Text.ofList name) :=
          ⟨by rwa [Text.toList_ofList], by rwa [Text.toList_ofList], truth, color⟩
        exact ⟨Text.ofList name, rfl, word⟩

theorem isUnit_unitChars {text : List CodePoint} (nonempty : unitChars text ≠ []) :
    IsUnit (unitChars text) := by
  revert nonempty
  unfold unitChars
  split
  · exact fun _ => .percent
  · exact fun nonempty => .letters nonempty (List.all_eq_true.mp List.all_takeWhile)

theorem sound_number {text : List CodePoint} {value : Value}
    (read : (numberParts text).value? = .ok value) :
    (⟨.number, value, (numberParts text).unit?⟩ : Lexeme).Sound Value.IsReadable := by
  constructor
  · unfold NumberParts.value? at read
    split at read
    · cases whole : Numeral.integer? (numberParts text).whole with
      | error fault =>
        rw [whole] at read
        cases read
      | ok number =>
        rw [whole] at read
        cases read
        exact .writable (.int (Numeral.integer?_lt whole))
    · next part _ =>
      cases double : Numeral.double? (numberParts text).whole part with
      | error fault =>
        rw [double] at read
        cases read
      | ok number =>
        rw [double] at read
        cases read
        exact Numeral.double?_readable double
  · intro unit measured
    unfold NumberParts.unit? at measured
    split at measured
    · cases measured
    · next nonempty =>
      cases measured
      rw [Text.toList_ofList]
      rw [List.isEmpty_iff] at nonempty
      exact isUnit_unitChars nonempty

theorem hexValue?_lt {c : CodePoint} {value : Nat} (found : hexValue? c = some value) : value < 16 := by
  simp only [hexValue?, Bool.and_eq_true, decide_eq_true_eq] at found
  split at found
  · cases found
    omega
  · split at found
    · cases found
      omega
    · split at found
      · cases found
        omega
      · cases found

theorem hexValues_lt {digits : List CodePoint} {values : List Nat}
    (found : digits.mapM hexValue? = some values) : ∀ value ∈ values, value < 16 := by
  induction digits generalizing values with
  | nil =>
    cases found
    simp
  | cons c digits ih =>
    simp only [List.mapM_cons, Option.bind_eq_bind, Option.bind_eq_some_iff, Option.pure_def,
      Option.some.injEq] at found
    obtain ⟨value, first, others, rest, rfl⟩ := found
    intro other member
    rcases List.mem_cons.mp member with rfl | later
    · exact hexValue?_lt first
    · exact ih rest other later

theorem isColor_of_channels {digits : List CodePoint} {channels : List Int}
    (found : channels? digits = some channels) : (Value.tuple channels).IsColor := by
  unfold channels? at found
  split at found
  · next r g b read =>
    cases found
    have small := hexValues_lt read
    simp only [List.mem_cons, List.not_mem_nil, or_false, forall_eq_or_imp, forall_eq] at small
    exact @Value.IsColor.channels (17 * r) (17 * g) (17 * b) (by omega) (by omega) (by omega)
  · next r r' g g' b b' read =>
    cases found
    have small := hexValues_lt read
    simp only [List.mem_cons, List.not_mem_nil, or_false, forall_eq_or_imp, forall_eq] at small
    exact @Value.IsColor.channels (16 * r + r') (16 * g + g') (16 * b + b') (by omega) (by omega)
      (by omega)
  · cases found

theorem Scanned.sound (scanned : lexeme.Scanned) : lexeme.Sound Value.IsReadable := by
  obtain ⟨c, rest, found⟩ := scanned
  have choice := chosen c rest
  revert found
  generalize scan c rest = taken at choice
  intro found
  cases choice with
  | name start =>
    cases found
    exact sound_ofName (isName_nameChars start)
  | reference sigil start =>
    cases found
    refine ⟨_, rfl, ?_⟩
    rw [Text.toList_ofList]
    exact isName_nameChars start
  | number =>
    simp only [scanNumber] at found
    cases read : (numberParts (c :: rest)).value? with
    | error fault =>
      rw [read] at found
      cases found
    | ok value =>
      rw [read] at found
      cases found
      exact sound_number read
  | quotation =>
    unfold scanQuotation at found
    split at found
    · cases found
      exact ⟨⟨_, rfl⟩, rfl⟩
    · cases found
  | color =>
    simp only [scanColor] at found
    cases read : channels? (colorDigits rest) with
    | none =>
      rw [read] at found
      cases found
    | some channels =>
      rw [read] at found
      cases found
      exact ⟨isColor_of_channels read, rfl⟩
  | symbol =>
    cases read : scanSymbol (c :: rest) with
    | none =>
      rw [read] at found
      cases found
    | some taken =>
      obtain ⟨⟨front, kind⟩, hit, rfl⟩ := Option.map_eq_some_iff.mp read
      rw [read] at found
      cases found
      exact sound_of_kind (kind_of_spelled (spelled?_of_symbol? hit))

end Lexeme

end StyleExpr
