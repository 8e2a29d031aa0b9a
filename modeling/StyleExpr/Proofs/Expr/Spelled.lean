import StyleExpr.Proofs.Expr.Standing
import StyleExpr.Proofs.Number.Display

/-! The canonical text of a readable tree spells lexemes that stand for the tree. Only an infinite
number is spelled as a word, so the lexemes hold no infinite number in any case. -/

namespace StyleExpr

open Lexeme

/-- Every number among the lexemes is one that can be written. -/
def NumbersWritable (lexemes : List Lexeme) : Prop :=
  ∀ lexeme ∈ lexemes, lexeme.kind = .number → lexeme.value.IsWritable

variable {expr : Expr} {text : List CodePoint} {lexeme : Lexeme} {lexemes first second : List Lexeme}

@[simp] theorem numbersWritable_nil : NumbersWritable [] := by
  simp [NumbersWritable]

@[simp] theorem numbersWritable_cons : NumbersWritable (lexeme :: lexemes) ↔
    (lexeme.kind = .number → lexeme.value.IsWritable) ∧ NumbersWritable lexemes :=
  List.forall_mem_cons

@[simp] theorem numbersWritable_append :
    NumbersWritable (first ++ second) ↔ NumbersWritable first ∧ NumbersWritable second :=
  List.forall_mem_append

@[simp] theorem numbersWritable_between (operator : Operator) :
    NumbersWritable (infixLexemes operator) := by
  cases operator <;> simp [infixLexemes, commaLexeme]

theorem kind_prefixLexeme_ne (operator : Operator) : (prefixLexeme operator).kind ≠ .number := by
  cases operator <;> decide

/-- The canonical text of a tree and the lexemes it is made of. -/
structure Expr.Spelled (expr : Expr) (text : List CodePoint) (lexemes : List Lexeme) : Prop where
  written : expr.write = .ok (Text.ofList text)
  spells : Spells text lexemes
  numbers : NumbersWritable lexemes
  stands : expr.WellFormed Value.IsWritable → Stands expr lexemes

/-- The canonical texts of arguments, with commas between them, and the lexemes they are made of. -/
structure Expr.SpelledAll (exprs : List Expr) (text : List CodePoint) (lexemes : List Lexeme) : Prop where
  written : ∃ texts, writeAll exprs = .ok texts ∧ texts.length = exprs.length ∧
    (Text.intercalate ", " texts).toList = text
  spells : Spells text lexemes
  numbers : NumbersWritable lexemes
  stands : (∀ expr ∈ exprs, expr.WellFormed Value.IsWritable) → StandsAll exprs lexemes

namespace Expr

namespace SpelledAll

theorem none : SpelledAll [] [] [] where
  written := ⟨[], rfl, rfl, rfl⟩
  spells := fun _ _ _ lexes => lexes
  numbers := numbersWritable_nil
  stands := fun _ => .none

theorem one (spelled : expr.Spelled text lexemes) : SpelledAll [expr] text lexemes where
  written := by
    refine ⟨[Text.ofList text], ?_, rfl, by simp⟩
    rw [writeAll, spelled.written]
    rfl
  spells := spelled.spells
  numbers := spelled.numbers
  stands := fun wellFormed => .one (spelled.stands (wellFormed expr (List.mem_singleton_self _)))

theorem more {next : Expr} {exprs : List Expr} {text' : List CodePoint} {lexemes' : List Lexeme}
    (spelled : expr.Spelled text lexemes) (others : SpelledAll (next :: exprs) text' lexemes') :
    SpelledAll (expr :: next :: exprs) (text ++ scalar ',' :: scalar ' ' :: text')
      (lexemes ++ commaLexeme :: lexemes') where
  written := by
    obtain ⟨texts, written, length, rfl⟩ := others.written
    have nonempty : texts ≠ [] := List.ne_nil_of_length_pos (length ▸ Nat.succ_pos _)
    refine ⟨Text.ofList text :: texts, ?_, congrArg Nat.succ length, ?_⟩
    · rw [writeAll, spelled.written, written]
      rfl
    · simp [Text.intercalate_cons_of_ne_nil nonempty]
  spells := by
    intro rest behind breaks lexes
    have after := lexes_comma (others.spells rest behind breaks lexes)
    have whole := spelled.spells _ _ (breaks_cons (by decide)) after
    simpa using whole
  numbers := by
    simp [spelled.numbers, others.numbers, commaLexeme]
  stands := by
    intro wellFormed
    rw [List.forall_mem_cons] at wellFormed
    exact .more (spelled.stands wellFormed.1) (others.stands wellFormed.2)

theorem of_each {exprs : List Expr}
    (each : ∀ expr ∈ exprs, ∃ text lexemes, expr.Spelled text lexemes) :
    ∃ text lexemes, SpelledAll exprs text lexemes := by
  induction exprs with
  | nil => exact ⟨_, _, none⟩
  | cons expr exprs ih =>
    rw [List.forall_mem_cons] at each
    obtain ⟨text, lexemes, spelled⟩ := each.1
    obtain ⟨text', lexemes', others⟩ := ih each.2
    cases exprs with
    | nil => exact ⟨_, _, one spelled⟩
    | cons => exact ⟨_, _, more spelled others⟩

end SpelledAll

namespace Spelled

variable {left right : Expr} {text' : List CodePoint} {lexemes' : List Lexeme} {operator : Operator}
variable {position : Position}

theorem binary (before : left.Spelled text lexemes) (behind : right.Spelled text' lexemes')
    (infixed : operator ≠ .not) :
    ∃ whole, (Expr.binary left right operator position).Spelled whole
      (openLexeme :: (lexemes ++ (infixLexemes operator ++ lexemes') ++ [closeLexeme])) := by
  obtain ⟨between, found, lexed⟩ := infix_spelled infixed
  refine ⟨scalar '(' :: (text ++ (between ++ (text' ++ [scalar ')']))), ?_, ?_, ?_, ?_⟩
  · simp only [write, before.written, behind.written, Canonical.spelling, found]
    exact congrArg Except.ok (Text.toList_inj.mp (by simp))
  · intro rest others breaks lexes
    have second := behind.spells _ _ (breaks_cons (by decide)) (lexes_close lexes)
    obtain ⟨breaks', middle⟩ := lexed _ _ second
    have whole := lexes_open (before.spells _ _ breaks' middle)
    simpa using whole
  · simp [before.numbers, behind.numbers, openLexeme, closeLexeme]
  · intro wellFormed
    cases wellFormed with
    | binary first second infixed =>
      exact .binary (before.stands first) (behind.stands second) infixed

theorem unary (inner : expr.Spelled text lexemes) (prefixed : operator ∈ [.minus, .divide, .not]) :
    ∃ whole, (Expr.unary expr operator position).Spelled whole
      (openLexeme :: (prefixLexeme operator :: lexemes ++ [closeLexeme])) := by
  obtain ⟨front, found, lexed⟩ := prefix_spelled prefixed
  refine ⟨scalar '(' :: (front ++ (text ++ [scalar ')'])), ?_, ?_, ?_, ?_⟩
  · simp only [write, inner.written, Canonical.spelling, found]
    exact congrArg Except.ok (Text.toList_inj.mp (by simp))
  · intro rest others breaks lexes
    have operand := inner.spells _ _ (breaks_cons (by decide)) (lexes_close lexes)
    have whole := lexes_open (lexed _ _ operand)
    simpa using whole
  · simp [inner.numbers, openLexeme, closeLexeme, kind_prefixLexeme_ne]
  · intro wellFormed
    cases wellFormed with
    | unary wellFormed prefixed => exact .unary (inner.stands wellFormed) prefixed

theorem call {name : Text} {arguments : List Expr} (word : IsWord name)
    (inner : SpelledAll arguments text lexemes) :
    ∃ whole, (Expr.call (.text name) arguments position).Spelled whole
      (⟨.identifier, .text name, none⟩ :: openLexeme :: (lexemes ++ [closeLexeme])) := by
  obtain ⟨texts, written, -, rfl⟩ := inner.written
  refine ⟨name.toList ++ scalar '(' :: ((Text.intercalate ", " texts).toList ++ [scalar ')']),
    ?_, ?_, ?_, ?_⟩
  · simp only [write, written]
    exact congrArg Except.ok (Text.toList_inj.mp (by simp [Value.plain]))
  · intro rest others breaks lexes
    have inside := inner.spells _ _ (breaks_cons (by decide)) (lexes_close lexes)
    have breaks' : Breaks (scalar '(' :: ((Text.intercalate ", " texts).toList ++ (scalar ')' :: rest))) :=
      breaks_cons (by decide)
    have whole := Lexes.lexeme (reads_name word.named breaks'.ends_name) (lexes_open inside)
    rw [ofName_word word] at whole
    simpa using whole
  · simp [inner.numbers, openLexeme, closeLexeme]
  · intro wellFormed
    cases wellFormed with
    | call word each => exact .call (inner.stands each)

theorem leaf {kind : TokenKind} {value : Value} {unit : Option Text}
    (written : expr.write = .ok (Text.ofList text))
    (reads : ∀ rest, Breaks rest → Reads text rest ⟨kind, value, unit⟩)
    (numbers : kind = .number → value.IsWritable) (stands : Stands expr [⟨kind, value, unit⟩]) :
    expr.Spelled text [⟨kind, value, unit⟩] where
  written := written
  spells := spells_lexeme reads
  numbers := by simpa using numbers
  stands := fun _ => stands

theorem reference {name : Text} (named : IsName name.toList) :
    (Expr.reference (.text name) position).Spelled (scalar '!' :: name.toList)
      [⟨.reference, .text name, none⟩] := by
  refine leaf ?_ ?_ nofun .reference
  · exact congrArg Except.ok (Text.toList_inj.mp (by simp [Value.plain]))
  · intro rest breaks
    have reads := reads_reference named breaks.ends_name
    rwa [Text.ofList_toList] at reads

theorem string {content : Text} :
    ∃ text, (Expr.literal .string (.text content) none position).Spelled text
      [⟨.string, .text content, none⟩] := by
  refine ⟨scalar '\x22' :: Canonical.escaped content.toList ++ [scalar '\x22'],
    leaf rfl ?_ nofun (.literal rfl)⟩
  intro rest _
  simpa using reads_string content.toList rest

theorem channel_natCast (value : Nat) : Canonical.channel value = Text.hexadecimal 2 value := by
  rw [Canonical.channel, if_neg (Int.not_lt.mpr (Int.natCast_nonneg value)), Int.natAbs_natCast]

theorem color {value : Value} (color : value.IsColor) :
    ∃ text, (Expr.literal .color value none position).Spelled text [⟨.color, value, none⟩] := by
  obtain ⟨smallRed, smallGreen, smallBlue⟩ := color
  refine ⟨_, leaf rfl ?_ nofun (.literal rfl)⟩
  intro rest breaks
  have reads := reads_color smallRed smallGreen smallBlue (breaks.none_of (by decide))
  rwa [← channel_natCast, ← channel_natCast, ← channel_natCast] at reads

theorem bool {truth : Bool} :
    ∃ text, (Expr.literal .bool (.bool truth) none position).Spelled text
      [⟨.bool, .bool truth, none⟩] := by
  refine ⟨(if truth then "true" else "false").toList, leaf ?_ ?_ nofun (.literal rfl)⟩
  · cases truth <;> rfl
  · intro rest breaks
    cases truth
    · exact reads_name (isName_of_letters (by decide) (by decide)) breaks.ends_name
    · exact reads_name (isName_of_letters (by decide) (by decide)) breaks.ends_name

section Numbers

variable {unit : Option Text}

theorem measured_suffix (measured : ∀ text ∈ unit, IsUnit text.toList) :
    (unit.getD "").toList = [] ∨ IsUnit (unit.getD "").toList := by
  cases unit with
  | none => exact .inl rfl
  | some unit => exact .inr (measured unit rfl)

theorem unit?_suffix (measured : ∀ text ∈ unit, IsUnit text.toList) (whole fraction : List CodePoint) :
    (NumberParts.mk whole fraction (unit.getD "").toList).unit? = unit := by
  cases unit with
  | none => rfl
  | some unit =>
    have nonempty : unit.toList ≠ [] := by
      intro empty
      have fits := measured unit rfl
      rw [empty] at fits
      cases fits with
      | letters nonempty => exact nonempty rfl
    simp [NumberParts.unit?, nonempty]

/-- A number is written in digits, which are read back as the number whatever unit is glued to them. -/
theorem reads_written {value : Value} (writable : value.IsWritable)
    (measured : ∀ text ∈ unit, IsUnit text.toList) :
    ∃ text d, Canonical.number value = .ok (Text.ofList text) ∧ Positional text d ∧
      ∀ rest, Breaks rest → Reads (text ++ (unit.getD "").toList) rest ⟨.number, value, unit⟩ := by
  have suffixed := measured_suffix measured
  cases writable with
  | @int number short =>
    have nonempty : Text.digits 10 number ≠ [] := Text.digits_ne_nil
    have plain := plain_digits number
    have written : Canonical.number (.int number) = .ok (Text.ofList (Text.digits 10 number)) := by
      rw [Canonical.number_int, ofString_toString]
    refine ⟨_, _, written, .whole nonempty plain, fun rest breaks => ?_⟩
    have denoted : (NumberParts.mk (Text.digits 10 number) [] (unit.getD "").toList).value? =
        .ok (.int number) := by
      simp only [NumberParts.value?, Numeral.integer?_digits short]
      rfl
    have reads := reads_number nonempty plain .none suffixed breaks denoted
    rwa [unit?_suffix measured] at reads
  | float rank =>
    have digits := Double.double?_shortest rank
    refine ⟨_, _, rfl, (Decimal.shortest rank).positional_positional, fun rest breaks => ?_⟩
    generalize Decimal.shortest rank = d at digits
    have point : IsFraction (scalar '.' :: d.partDigits) := .point d.partDigits_ne_nil d.plain_partDigits
    have denoted : (NumberParts.mk d.wholeDigits (scalar '.' :: d.partDigits) (unit.getD "").toList).value? =
        .ok (.float (.finite false rank)) := by
      simp only [NumberParts.value?, digits]
      rfl
    have reads := reads_number d.wholeDigits_ne_nil d.plain_wholeDigits point suffixed breaks denoted
    rwa [unit?_suffix measured, ← List.append_assoc] at reads

theorem number {value : Value} (writable : value.IsWritable)
    (measured : ∀ text ∈ unit, IsUnit text.toList) :
    ∃ text, (Expr.literal .number value unit position).Spelled text [⟨.number, value, unit⟩] := by
  obtain ⟨text, d, written, -, reads⟩ := reads_written writable measured
  refine ⟨_, leaf ?_ reads (fun _ => writable) (.literal rfl)⟩
  simp only [write, Canonical.literal, written]
  exact congrArg Except.ok (Text.toList_inj.mp (by simp))

/-- No word with a meaning of its own begins like the text of an infinite number. -/
theorem isWord_infinite {suffix : List CodePoint} (letters : ∀ c ∈ suffix, Text.isLetter c = true) :
    IsWord (Text.ofList (scalar 'i' :: scalar 'n' :: scalar 'f' :: suffix)) := by
  have other (word : Text) (begins : word.toList.head? ≠ some (scalar 'i')) :
      Text.ofList (scalar 'i' :: scalar 'n' :: scalar 'f' :: suffix) ≠ word := by
    rintro rfl
    exact begins (by simp)
  constructor
  · rw [Text.toList_ofList]
    apply isName_of_letters (List.cons_ne_nil _ _)
    simpa using ⟨by decide, by decide, by decide, letters⟩
  · rw [Text.toList_ofList]
    cases suffix <;> rfl
  · unfold truthWord?
    rw [if_neg (other _ (by decide)), if_neg (other _ (by decide))]
  · unfold namedColor?
    rw [List.lookup_eq_none_iff]
    intro entry listed
    have begins : ∀ entry ∈ namedColors, entry.1.toList.head? ≠ some (scalar 'i') := by decide
    exact bne_iff_ne.mpr (other _ (begins entry listed))

theorem word {name : List CodePoint} (word : IsWord (Text.ofList name))
    (written : expr.write = .ok (Text.ofList name))
    (unwritable : ¬ expr.WellFormed Value.IsWritable) :
    expr.Spelled name [⟨.identifier, .text (Text.ofList name), none⟩] where
  written := written
  spells := by
    refine spells_lexeme fun rest breaks => ?_
    have reads := reads_name word.named breaks.ends_name
    rwa [ofName_word word, Text.toList_ofList] at reads
  numbers := by simp
  stands := fun wellFormed => (unwritable wellFormed).elim

theorem spells_infinite_percent : Spells [scalar 'i', scalar 'n', scalar 'f', scalar '%']
    [⟨.identifier, .text "inf", none⟩, ⟨.modulo, .text "%", none⟩] := by
  intro rest others _ lexes
  have sign := lexes_single lexes (show scalar '%' ∈ signs by decide) rfl
    fun _ _ => spelled?_pair (by decide)
  have word : IsWord "inf" := isWord_infinite nofun
  have stop : ∀ c ∈ (scalar '%' :: rest).head?, Text.isWord c = false ∧ c ≠ scalar '-' := by
    rintro _ ⟨⟩
    decide
  have name := reads_name word.named stop
  rw [ofName_word word] at name
  have whole : Lexes ((Text.ofString "inf").toList ++ scalar '%' :: rest) _ := .lexeme name sign
  exact whole

/-- An infinite number is written as a word, and a percent sign behind it as an operator. -/
theorem infinite (measured : ∀ text ∈ unit, IsUnit text.toList) :
    ∃ text lexemes, (Expr.literal .number (.float (.infinite false)) unit position).Spelled text
      lexemes := by
  have shown : (Double.infinite false).positional = Text.ofList [scalar 'i', scalar 'n', scalar 'f'] := rfl
  have written : (Expr.literal .number (.float (.infinite false)) unit position).write =
      .ok (Text.ofList (scalar 'i' :: scalar 'n' :: scalar 'f' :: (unit.getD "").toList)) :=
    congrArg Except.ok (Text.toList_inj.mp (by simp [shown]))
  have finite : ¬ (Expr.literal .number (.float (.infinite false)) unit position).WellFormed
      Value.IsWritable :=
    fun wellFormed => wellFormed.finite (.literal _ _ _ _)
  have suffixed := measured_suffix measured
  generalize (unit.getD "").toList = suffix at written suffixed
  rcases suffixed with rfl | percent | ⟨-, letters⟩
  · exact ⟨_, _, word (isWord_infinite (by simp)) written finite⟩
  · exact ⟨_, _, written, spells_infinite_percent, by simp, fun wellFormed => (finite wellFormed).elim⟩
  · exact ⟨_, _, word (isWord_infinite letters) written finite⟩

end Numbers

end Spelled

theorem WellFormed.spelled (wellFormed : expr.WellFormed Value.IsReadable) :
    ∃ text lexemes, expr.Spelled text lexemes := by
  induction wellFormed with
  | binary _ _ infixed before behind =>
    obtain ⟨_, _, first⟩ := before
    obtain ⟨_, _, second⟩ := behind
    obtain ⟨_, spelled⟩ := first.binary second infixed
    exact ⟨_, _, spelled⟩
  | unary _ prefixed inner =>
    obtain ⟨_, _, operand⟩ := inner
    obtain ⟨_, spelled⟩ := operand.unary prefixed
    exact ⟨_, _, spelled⟩
  | call word _ each =>
    obtain ⟨_, _, arguments⟩ := SpelledAll.of_each each
    obtain ⟨_, spelled⟩ := Spelled.call word arguments
    exact ⟨_, _, spelled⟩
  | reference named => exact ⟨_, _, .reference named⟩
  | string =>
    obtain ⟨_, spelled⟩ := Spelled.string
    exact ⟨_, _, spelled⟩
  | number number measured =>
    cases number with
    | writable writable =>
      obtain ⟨_, spelled⟩ := Spelled.number writable measured
      exact ⟨_, _, spelled⟩
    | infinite => exact Spelled.infinite measured
  | color color =>
    obtain ⟨_, spelled⟩ := Spelled.color color
    exact ⟨_, _, spelled⟩
  | bool =>
    obtain ⟨_, spelled⟩ := Spelled.bool
    exact ⟨_, _, spelled⟩

end Expr

end StyleExpr
