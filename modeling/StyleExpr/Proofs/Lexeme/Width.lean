import StyleExpr.Proofs.Lexeme.Image
import StyleExpr.Proofs.Lexeme.Sealed

/-! The width that a token gives itself, and how many characters it was read off. The width is computed
from the value alone, and is right wherever the value tells the spelling up to its length. -/

namespace StyleExpr.Lexeme

open Text

/-- The spellings of which a token of the kind knows the length. -/
inductive Measurable : TokenKind → List CodePoint → Prop where
  | value {kind : TokenKind} {spelling : List CodePoint} (valued : kind ∉ [.string, .number, .color]) :
      Measurable kind spelling
  | string {spelling : List CodePoint} (plain : scalar '\\' ∉ spelling) : Measurable .string spelling
  | number {digits suffix : List CodePoint} (trimmed : Trimmed digits)
      (unit : suffix = [] ∨ IsUnit suffix) : Measurable .number (digits ++ suffix)
  | color {digits : List CodePoint} (six : digits.length = 6) : Measurable .color (scalar '#' :: digits)

variable {text body content digits suffix front rest name : List CodePoint} {kind : TokenKind}
variable {lexeme : Lexeme} {position : Position} {number : Except NumeralFault Value}

/-- A quoted text is shorter than its body by the backslashes that escape. -/
theorem Quoted.length_le (quoted : Quoted body content) :
    content.length ≤ body.length ∧ (scalar '\\' ∈ body → content.length < body.length) := by
  induction quoted with
  | none => simp
  | plain other _ ih =>
    simp only [List.length_cons, List.mem_cons, Ne.symm other.2, false_or]
    exact ⟨by omega, fun slash => by have := ih.2 slash; omega⟩
  | escaped _ ih =>
    simp only [List.length_cons]
    exact ⟨by omega, fun _ => by omega⟩

theorem Quoted.eq_of_plain (quoted : Quoted body content) (plain : scalar '\\' ∉ body) : content = body := by
  induction quoted with
  | none => rfl
  | plain _ _ ih => rw [ih fun slash => plain (List.mem_cons_of_mem _ slash)]
  | escaped => exact absurd (List.mem_cons_self ..) plain

/-- What a numeral is made of, and no unit begins with. -/
def inNumeral (c : CodePoint) : Bool :=
  isDigit c || c == scalar '.'

theorem Denotes.all_inNumeral (denotes : Denotes digits number) : ∀ c ∈ digits, inNumeral c = true := by
  have run {digits : List CodePoint} (each : Run isDigit digits) : ∀ c ∈ digits, inNumeral c = true :=
    fun c member => by simp [inNumeral, each c member]
  cases denotes with
  | whole _ each => exact run each
  | point each _ behind =>
    exact List.forall_mem_append.mpr ⟨run each, List.forall_mem_cons.mpr ⟨rfl, run behind⟩⟩

theorem unit_stops (unit : suffix = [] ∨ IsUnit suffix) :
    ∀ c ∈ suffix.head?, inNumeral c = false := by
  intro c next
  have stops := suffix_stops unit breaks_nil
  rw [List.append_nil] at stops
  simp [inNumeral, stops c next]

theorem width_number (trimmed : Trimmed digits) (denotes : Denotes digits number)
    (made : ofNumber suffix number = .ok lexeme) :
    (lexeme.tokenAt position).width = .ok (digits ++ suffix).length := by
  have whole := denotes.unique (.whole trimmed.nonempty (isDigit_of_plain trimmed.plain) rfl)
  subst whole
  cases read : Numeral.integer? digits with
  | error fault =>
    rw [read] at made
    cases made
  | ok value =>
    rw [read] at made
    obtain rfl := Except.ok.inj made
    have length : (Text.ofString (toString (value : Int))).length = digits.length := by
      rw [ofString_toString, Text.length_ofList, Numeral.eq_of_integer? trimmed.plain read, trimmed.digits_eq]
    have unit : ((unitOf suffix).getD "").length = suffix.length := by
      unfold unitOf
      split
      · next none => rw [none]; rfl
      · exact Text.length_ofList
    rw [List.length_append, ← length, ← unit]
    rfl

theorem width_spelled (spelled : spelled? front = some kind) :
    Token.width ⟨kind, .text (Text.ofList front), position, none⟩ = .ok front.length := by
  unfold spelled? at spelled
  split at spelled <;> cases spelled <;> rfl

theorem length_truthWord {truth : Bool} (word : truthWord? (Text.ofList name) = some truth) :
    (Value.bool truth).plain.length = name.length := by
  have length : name.length = (Text.ofList name).length := rfl
  rw [length]
  unfold truthWord? at word
  split at word
  · next same =>
    cases word
    rw [same]
    decide
  split at word
  · next same =>
    cases word
    rw [same]
    decide
  · cases word

theorem width_classified (word : Classified name lexeme) (uncolored : lexeme.kind ≠ .color) :
    (lexeme.tokenAt position).width = .ok name.length := by
  cases word with
  | keyword spelled => exact width_spelled spelled
  | truth word => exact congrArg Except.ok (length_truthWord word)
  | color => exact absurd rfl uncolored
  | identifier => exact congrArg Except.ok Text.length_ofList

theorem width_quotation (content : List CodePoint) (position : Position) :
    Token.width ⟨.string, .text (Text.ofList content), position, none⟩ =
      .ok (scalar '\x22' :: (content ++ [scalar '\x22'])).length := by
  rw [List.length_cons, List.length_append]
  rfl

/-- A name does not begin like the spelling of a measurable colour. -/
theorem unmeasurable_of_opens (opens : Opens text .name) (leads : front <+: text) :
    ¬ Measurable .color front := by
  intro measurable
  cases measurable with
  | value valued => simp at valued
  | color =>
    obtain ⟨rest, rfl⟩ := leads
    exact absurd (startsName_of_opens opens) (show ¬ startsName (scalar '#') = true by decide)

/-- A token is as wide as what it was read off, where its spelling is measurable. -/
theorem Reads.width_eq (reads : Reads front rest lexeme) (measurable : Measurable lexeme.kind front) :
    (lexeme.tokenAt position).width = .ok front.length := by
  obtain ⟨-, lexical⟩ := reads_iff.mp reads
  generalize front ++ rest = text at lexical
  generalize given : Except.ok lexeme = found at lexical
  cases lexical with
  | name opens longest word =>
    cases given
    -- the name of a colour is not measurable, as it has no number sign in front
    refine width_classified word fun color => ?_
    rw [color] at measurable
    exact unmeasurable_of_opens opens longest.leads measurable
  | reference =>
    cases given
    refine congrArg Except.ok ?_
    rw [Text.length_ofList]
    rfl
  | @number taken _ suffix number _ _ _ unit denotes =>
    have kind : lexeme.kind = .number := by
      cases number <;> cases given
      rfl
    rw [kind] at measurable
    generalize spelled : taken ++ suffix = front at measurable
    cases measurable with
    | value valued => simp at valued
    | number trimmed unit' =>
      -- both spellings are cut at the first character that stands in no numeral
      obtain ⟨rfl, rfl⟩ := append_inj_of_run denotes.all_inNumeral
        (Denotes.all_inNumeral (.whole trimmed.nonempty (isDigit_of_plain trimmed.plain) rfl))
        (unit_stops unit.formed) (unit_stops unit') spelled
      exact width_number trimmed denotes given.symm
  | quotation _ quoted =>
    cases given
    cases measurable with
    | value valued => simp at valued
    | string plain =>
      rw [quoted.eq_of_plain fun slash => plain (by simp [slash])]
      exact width_quotation ..
  | color =>
    cases given
    cases measurable with
    | value valued => simp at valued
    | color six => rw [List.length_cons, six]; rfl
  | symbol _ _ spelled =>
    cases given
    exact width_spelled spelled
  | unterminated | discolored | unexpected => cases given

theorem Reads.quotation (reads : Reads front rest lexeme) (string : lexeme.kind = .string) :
    ∃ body content, Quoted body content ∧ front = scalar '\x22' :: (body ++ [scalar '\x22']) ∧
      lexeme = ⟨.string, .text (Text.ofList content), none⟩ := by
  obtain ⟨-, lexical⟩ := reads_iff.mp reads
  generalize front ++ rest = text at lexical
  generalize given : Except.ok lexeme = found at lexical
  cases lexical with
  | quotation _ quoted =>
    cases given
    exact ⟨_, _, quoted, rfl, rfl⟩
  | name _ _ word =>
    cases given
    cases word with
    | @keyword kind spelled =>
      obtain rfl : kind = .string := string
      exact absurd (kind_of_spelled spelled) (by decide)
    | truth | color | identifier => cases string
  | @number _ _ _ number =>
    cases number <;> cases given
    cases string
  | @symbol _ kind _ _ spelled =>
    cases given
    obtain rfl : kind = .string := string
    exact absurd (kind_of_spelled spelled) (by decide)
  | reference | color =>
    cases given
    cases string
  | unterminated | discolored | unexpected => cases given

/-- A text is narrower than what it was read off by the backslashes that escape in it. -/
theorem Reads.width_lt (reads : Reads front rest lexeme) (string : lexeme.kind = .string)
    (slash : scalar '\\' ∈ front) : ∃ width < front.length, (lexeme.tokenAt position).width = .ok width := by
  obtain ⟨body, content, quoted, rfl, rfl⟩ := reads.quotation string
  have shorter := quoted.length_le.2 (by simpa using slash)
  exact ⟨_, by simpa using shorter, width_quotation content position⟩

end StyleExpr.Lexeme
