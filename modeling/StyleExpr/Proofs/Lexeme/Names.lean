import StyleExpr.Lexeme.Basic
import StyleExpr.Proofs.Text.Classes

/-! Names, told without a scanner: words joined by single hyphens. The scanner takes exactly a name, and
the whole of it. -/

namespace StyleExpr

open Lexeme Text

/-- Words with a hyphen between each two of them. -/
inductive Hyphenated : List CodePoint → Prop where
  | word (nonempty : word ≠ []) (each : ∀ c ∈ word, isWord c = true) : Hyphenated word
  | joined (nonempty : word ≠ []) (each : ∀ c ∈ word, isWord c = true) (others : Hyphenated name) :
      Hyphenated (word ++ scalar '-' :: name)

/-- A name begins with a letter or the low line. -/
structure IsName (name : List CodePoint) : Prop where
  hyphenated : Hyphenated name
  start : startsWith startsName name = true

variable {name word rest : List CodePoint} {c : CodePoint}

theorem isWord_hyphen : isWord (scalar '-') = false := by decide

theorem ne_hyphen_of_isWord (member : isWord c = true) : c ≠ scalar '-' := by
  rintro rfl
  rw [isWord_hyphen] at member
  cases member

theorem Hyphenated.starts (hyphenated : Hyphenated name) (rest : List CodePoint) :
    startsWith isWord (name ++ rest) = true := by
  cases hyphenated with
  | word nonempty each | joined nonempty each =>
    obtain ⟨c, tail, rfl⟩ := List.exists_cons_of_ne_nil nonempty
    exact each c (List.mem_cons_self ..)

theorem nameFront_word (inside : Bool) (member : isWord c = true) (rest : List CodePoint) :
    nameFront inside (c :: rest) = c :: nameFront true rest := by
  rw [nameFront, if_neg (ne_hyphen_of_isWord member), if_pos member]

theorem nameFront_words (nonempty : word ≠ []) (each : ∀ c ∈ word, isWord c = true) (inside : Bool)
    (rest : List CodePoint) : nameFront inside (word ++ rest) = word ++ nameFront true rest := by
  induction word generalizing inside with
  | nil => exact absurd rfl nonempty
  | cons c word ih =>
    rw [List.cons_append, nameFront_word inside (each c (List.mem_cons_self ..)), List.cons_append]
    cases word with
    | nil => rfl
    | cons d word =>
      rw [ih (List.cons_ne_nil _ _) fun c member => each c (List.mem_cons_of_mem _ member)]

theorem nameFront_hyphenated (hyphenated : Hyphenated name) (inside : Bool)
    (stop : ∀ c ∈ rest.head?, isWord c = false ∧ c ≠ scalar '-') :
    nameFront inside (name ++ rest) = name := by
  have ended : nameFront true rest = [] := by
    cases rest with
    | nil => rfl
    | cons c rest =>
      obtain ⟨outside, other⟩ := stop c rfl
      simp [nameFront, outside, other]
  induction hyphenated generalizing inside with
  | word nonempty each => rw [nameFront_words nonempty each, ended, List.append_nil]
  | joined nonempty each others ih =>
    rw [List.append_assoc, nameFront_words nonempty each, List.cons_append, nameFront, if_pos rfl,
      others.starts rest]
    simp [ih]

theorem Hyphenated.cons (member : isWord c = true) (hyphenated : Hyphenated name) :
    Hyphenated (c :: name) := by
  cases hyphenated with
  | word nonempty each => exact .word (List.cons_ne_nil _ _) (List.forall_mem_cons.mpr ⟨member, each⟩)
  | joined nonempty each others =>
    exact .joined (List.cons_ne_nil _ _) (List.forall_mem_cons.mpr ⟨member, each⟩) others

theorem hyphenated_singleton (member : isWord c = true) : Hyphenated [c] :=
  .word (List.cons_ne_nil _ _) (by simpa using member)

/-- What the scanner takes behind a word character keeps it a name. -/
theorem hyphenated_cons_nameFront (text : List CodePoint) :
    (startsWith isWord text = true → Hyphenated (nameFront true text)) ∧
      ∀ c, isWord c = true → Hyphenated (c :: nameFront true text) := by
  induction text with
  | nil => exact ⟨nofun, fun c member => hyphenated_singleton member⟩
  | cons d text ih =>
    constructor
    · intro member
      rw [nameFront_word true member]
      exact ih.2 d member
    · intro c member
      by_cases word : isWord d = true
      · rw [nameFront_word true word]
        exact (ih.2 d word).cons member
      · by_cases more : d = scalar '-' ∧ startsWith isWord text = true
        · obtain ⟨rfl, begins⟩ := more
          have joined : nameFront true (scalar '-' :: text) = scalar '-' :: nameFront true text := by
            simp [nameFront, begins]
          rw [joined]
          have each : ∀ d ∈ [c], isWord d = true := by simpa using member
          exact .joined (List.cons_ne_nil _ _) each (ih.1 begins)
        · have ended : nameFront true (d :: text) = [] := by
            unfold nameFront
            by_cases hyphen : d = scalar '-'
            · simpa [hyphen] using fun begins => more ⟨hyphen, begins⟩
            · simp [hyphen, word]
          rw [ended]
          exact hyphenated_singleton member

theorem isName_nameChars {text : List CodePoint} (start : startsWith startsName text = true) :
    IsName (nameChars text) := by
  cases text with
  | nil => cases start
  | cons c text =>
    have member := isWord_of_startsName start
    rw [nameChars, nameFront_word false member]
    exact ⟨(hyphenated_cons_nameFront text).2 c member, start⟩

end StyleExpr
