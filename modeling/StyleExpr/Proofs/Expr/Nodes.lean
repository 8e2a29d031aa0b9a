import StyleExpr.Proofs.Grammar.Places
import StyleExpr.Proofs.RoundTrip
import StyleExpr.Proofs.Source.Transcript

/-! The nodes of a tree that is read off a text, each of them seen alone. Whatever the text is, they are
such that the tree can be written. -/

namespace StyleExpr

open Lexeme

/-- A letter or the low line comes first, and each hyphen has another character behind it. -/
structure NameShaped (name : Text) : Prop where
  start : ∃ c rest, name.toList = c :: rest ∧ (Text.isLetter c = true ∨ c = scalar '_')
  ending : name.toList.getLast? ≠ some (scalar '-')
  single : ¬ [scalar '-', scalar '-'] <:+: name.toList

section Names

variable {name word : List CodePoint}

theorem Hyphenated.ends (hyphenated : Hyphenated name) :
    ∃ front c, name = front ++ [c] ∧ Text.isWord c = true := by
  induction hyphenated with
  | @word word nonempty each =>
    have split := List.dropLast_concat_getLast nonempty
    exact ⟨_, _, split.symm, each _ (List.getLast_mem nonempty)⟩
  | @joined word name nonempty each others ih =>
    obtain ⟨front, c, rfl, member⟩ := ih
    exact ⟨word ++ scalar '-' :: front, c, by simp, member⟩

/-- Words hold no hyphen, so two hyphens would have to stand in the rest of the name. -/
theorem Hyphenated.single (hyphenated : Hyphenated name) : ¬ [scalar '-', scalar '-'] <:+: name := by
  have plain {word : List CodePoint} (each : ∀ c ∈ word, Text.isWord c = true) : scalar '-' ∉ word :=
    fun member => ne_hyphen_of_isWord (each _ member) rfl
  induction hyphenated with
  | @word word nonempty each =>
    intro double
    exact plain each (double.subset (List.mem_cons_self ..))
  | @joined word name nonempty each others ih =>
    have begins (rest : List CodePoint) : name ≠ scalar '-' :: rest := by
      rintro rfl
      have solid := others.starts []
      cases solid
    rintro ⟨before, behind, split⟩
    rw [List.append_assoc, List.append_eq_append_iff] at split
    rcases split with ⟨rest, rfl, same⟩ | ⟨rest, rfl, same⟩
    · cases rest with
      | nil => exact begins behind (List.cons.inj same).2.symm
      | cons c rest =>
        obtain rfl := (List.cons.inj same).1
        exact plain each (by simp)
    · cases rest with
      | nil => exact begins behind (List.cons.inj same).2
      | cons c rest =>
        obtain rfl := (List.cons.inj same).2
        exact ih ⟨rest, behind, by simp⟩

theorem IsName.shaped {name : Text} (named : IsName name.toList) : NameShaped name := by
  refine ⟨?_, ?_, named.hyphenated.single⟩
  · have start := named.start
    revert start
    cases name.toList with
    | nil => exact nofun
    | cons c rest =>
      intro start
      have first : Text.startsName c = true := start
      exact ⟨c, rest, rfl, by simpa [Text.startsName] using first⟩
  · obtain ⟨front, c, split, member⟩ := named.hyphenated.ends
    rw [split, List.getLast?_concat]
    rintro ⟨⟩
    cases member

end Names

namespace Expr

/-- A node as it can be read off a text, whatever the nodes below it are. -/
def Fits : Expr → Prop
  | binary _ _ operator _ => operator ≠ .not
  | unary _ operator _ => operator ∈ [.minus, .divide, .not]
  | call name _ _ => ∃ word, name = .text word ∧ NameShaped word ∧ spelled? word.toList = none ∧
      truthWord? word = none ∧ namedColor? word = none
  | reference name _ => ∃ word, name = .text word ∧ NameShaped word
  | literal .string value unit _ => (∃ content, value = .text content) ∧ unit = none
  | literal .number value unit _ => value.IsReadable ∧ ∀ text ∈ unit, IsUnit text.toList
  | literal .color value unit _ => value.IsColor ∧ unit = none
  | literal .bool value unit _ => (∃ truth, value = .bool truth) ∧ unit = none
  | bare _ => False

variable {expr : Expr}

theorem WellFormed.fits (wellFormed : expr.WellFormed Value.IsReadable) : expr.Fits := by
  cases wellFormed with
  | binary _ _ infixed => exact infixed
  | unary _ prefixed => exact prefixed
  | call word => exact ⟨_, rfl, word.named.shaped, word.keyword, word.truth, word.color⟩
  | reference named => exact ⟨_, rfl, named.shaped⟩
  | string => exact ⟨⟨_, rfl⟩, rfl⟩
  | number number measured => exact ⟨number, measured⟩
  | color color => exact ⟨color, rfl⟩
  | bool => exact ⟨⟨_, rfl⟩, rfl⟩

theorem WellFormed.walk {numbers : Value → Prop} (wellFormed : expr.WellFormed numbers) :
    ∀ node ∈ expr.walk, node.WellFormed numbers :=
  forall_walk (fun _ inner => inner.child) wellFormed

end Expr

variable {source : Text} {start : Position} {expr : Expr}

/-- Every node that is read off a text has one of the forms of the grammar, with an operator, a name or
a value and unit that fit the form, and so the tree can always be written. -/
theorem nodes_fit (accepted : (Reading.ofText source start).1.outcome = .ok expr) :
    (∀ node ∈ expr.walk, node.Fits) ∧ ∃ text, expr.write = .ok text := by
  have readable := Reading.wellFormed_of_ofText accepted
  obtain ⟨text, lexemes, spelled⟩ := readable.spelled
  exact ⟨fun node member => (readable.walk node member).fits, _, spelled.written⟩

/-- The nodes of `-f(!a-b)` are a sign, a call and a reference whose name holds a hyphen. -/
theorem nodes_fit_signed_call :
    let reference : Expr := .reference (.text "a-b") ⟨1, 4⟩
    let call : Expr := .call (.text "f") [reference] ⟨1, 2⟩
    let expr : Expr := .unary call .minus ⟨1, 1⟩
    (Reading.ofText "-f(!a-b)" ⟨1, 1⟩).1.outcome = .ok expr ∧
      (expr.Fits ∧ call.Fits ∧ reference.Fits) ∧ ∃ text, expr.write = .ok text := by
  let minus : Token := ⟨.minus, .text "-", ⟨1, 1⟩, none⟩
  let word : Token := ⟨.identifier, .text "f", ⟨1, 2⟩, none⟩
  let opener : Token := ⟨.openParen, .text "(", ⟨1, 3⟩, none⟩
  let named : Token := ⟨.reference, .text "a-b", ⟨1, 4⟩, none⟩
  let closer : Token := ⟨.closeParen, .text ")", ⟨1, 8⟩, none⟩
  intro reference call expr
  have lexed : tokenize "-f(!a-b)" ⟨1, 1⟩ = .ok ([minus, word, opener, named, closer] ++ []) := rfl
  have argument : Phrase .concatenation false [named] reference :=
    (Phrase.reference rfl).loosen (by decide)
  have called : Phrase .call false (word :: opener :: ([named] ++ [closer])) call :=
    .call rfl rfl rfl [([named], reference)] .one (by simpa using argument)
  have signed : Phrase .minus false (minus :: word :: opener :: ([named] ++ [closer])) expr :=
    .sign rfl (called.loosen (by decide))
  obtain ⟨lexer, read, -⟩ := Reading.ofText_phrase (feeds_of_tokenize lexed)
    (signed.loosen (by decide)) (Level.stops_nil _)
  have accepted : (Reading.ofText "-f(!a-b)" ⟨1, 1⟩).1.outcome = .ok expr := by rw [read]
  obtain ⟨fit, written⟩ := nodes_fit accepted
  have nodes : expr.walk = [expr, call, reference] := by
    simp [Expr.walk, Expr.visit, Expr.children, expr, call, reference]
  rw [nodes] at fit
  exact ⟨accepted, by simpa using fit, written⟩

end StyleExpr
