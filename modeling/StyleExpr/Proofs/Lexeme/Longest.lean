import StyleExpr.Proofs.Lexeme.Written

/-! Longest matches: the front part of a text that has a form while no longer front part has it. The
runs, names, numerals and units that the scanners take are the longest ones. -/

namespace StyleExpr.Lexeme

open Text

/-- A front part of a text that has a form, as no longer front part has. -/
structure Longest (form : List CodePoint → Prop) (text front : List CodePoint) : Prop where
  formed : form front
  leads : front <+: text
  longest : ∀ other, form other → other <+: text → other.length ≤ front.length

variable {form : List CodePoint → Prop} {text front other name rest : List CodePoint}
variable {isMember : CodePoint → Bool} {c : CodePoint}

theorem Longest.unique (first : Longest form text front) (second : Longest form text other) :
    front = other := by
  have same : front.length = other.length := by
    apply Nat.le_antisymm
    · exact second.longest front first.formed first.leads
    · exact first.longest other second.formed second.leads
  have part : front <+: other :=
    List.prefix_of_prefix_length_le first.leads second.leads (Nat.le_of_eq same)
  exact part.eq_of_length same

/-- The longest match behind a front part makes a longer front part of it. -/
theorem Longest.extends (longest : Longest form rest other) (split : text = front ++ rest) :
    front ++ other <+: text := by
  rw [split]
  exact (List.prefix_append_right_inj front).mpr longest.leads

/-- Characters of one class, perhaps none. -/
def Run (isMember : CodePoint → Bool) (text : List CodePoint) : Prop :=
  ∀ c ∈ text, isMember c = true

theorem run_nil : Run isMember [] :=
  fun _ member => nomatch member

theorem Run.isPrefix_takeWhile (run : Run isMember front) (rest : List CodePoint) :
    front <+: (front ++ rest).takeWhile isMember := by
  rw [List.takeWhile_append_of_pos run]
  exact List.prefix_append _ _

theorem longest_takeWhile (isMember : CodePoint → Bool) (text : List CodePoint) :
    Longest (Run isMember) text (text.takeWhile isMember) where
  formed := List.all_eq_true.mp List.all_takeWhile
  leads := List.takeWhile_prefix _
  longest := by
    rintro other run ⟨rest, rfl⟩
    exact (run.isPrefix_takeWhile rest).length_le

theorem Hyphenated.isPrefix_nameFront (hyphenated : Hyphenated name) (inside : Bool)
    (rest : List CodePoint) : name <+: nameFront inside (name ++ rest) := by
  induction hyphenated generalizing inside with
  | word nonempty each =>
    rw [nameFront_words nonempty each]
    exact List.prefix_append _ _
  | @joined word name nonempty each others ih =>
    have onward :
        nameFront true (scalar '-' :: (name ++ rest)) = scalar '-' :: nameFront true (name ++ rest) := by
      simp [nameFront, others.starts rest]
    rw [List.append_assoc, nameFront_words nonempty each, List.cons_append, onward]
    apply (List.prefix_append_right_inj word).mpr
    exact List.cons_prefix_cons.mpr ⟨rfl, ih true⟩

theorem longest_nameChars (start : startsWith startsName text = true) :
    Longest Hyphenated text (nameChars text) where
  formed := (isName_nameChars start).hyphenated
  leads := nameFront_isPrefix false text
  longest := by
    rintro other hyphenated ⟨rest, rfl⟩
    exact (Hyphenated.isPrefix_nameFront hyphenated false rest).length_le

/-- A numeral is a run of digits, or one around a point with no digit needed in front of it. It denotes
an integer or the nearest double, or it is at fault. -/
inductive Denotes : List CodePoint → Except NumeralFault Value → Prop where
  | whole {digits : List CodePoint} {number : Except NumeralFault Value} (nonempty : digits ≠ [])
      (each : Run isDigit digits)
      (read : (Numeral.integer? digits).map (fun value => Value.int value) = number) :
      Denotes digits number
  | point {digits part : List CodePoint} {number : Except NumeralFault Value} (each : Run isDigit digits)
      (nonempty : part ≠ []) (behind : Run isDigit part)
      (read : (Numeral.double? digits part).map Value.float = number) :
      Denotes (digits ++ scalar '.' :: part) number

def IsNumeral (text : List CodePoint) : Prop :=
  ∃ number, Denotes text number

theorem isDigit_point : isDigit (scalar '.') = false := by decide

/-- The digits in front of a point are all those at the front of the text. -/
theorem takeWhile_digits {digits : List CodePoint} (each : Run isDigit digits) (rest : List CodePoint) :
    (digits ++ scalar '.' :: rest).takeWhile isDigit = digits :=
  takeWhile_run each (by
    rintro c ⟨⟩
    exact isDigit_point)

theorem ne_nil_of_isPrefix (leads : front <+: text) (nonempty : front ≠ []) : text ≠ [] := by
  rintro rfl
  exact nonempty (List.prefix_nil.mp leads)

/-- Of digits around a point the scanner takes all, and perhaps more digits behind them. -/
theorem numberParts_point {digits part : List CodePoint} (each : Run isDigit digits) (nonempty : part ≠ [])
    (behind : Run isDigit part) (rest : List CodePoint) :
    ∃ more, part <+: more ∧ Run isDigit more ∧
      (numberParts (digits ++ scalar '.' :: (part ++ rest))).whole = digits ∧
      (numberParts (digits ++ scalar '.' :: (part ++ rest))).fraction = scalar '.' :: more := by
  have front := behind.isPrefix_takeWhile rest
  refine ⟨_, front, (longest_takeWhile isDigit _).formed, takeWhile_digits each _, ?_⟩
  have some := ne_nil_of_isPrefix front nonempty
  simp [numberParts, takeWhile_digits each, fractionChars, some]

theorem fractionChars_cases (text : List CodePoint) :
    fractionChars text = [] ∨ ∃ part rest, fractionChars text = scalar '.' :: part ∧ part ≠ [] ∧
      Run isDigit part ∧ text = scalar '.' :: (part ++ rest) := by
  unfold fractionChars
  split
  · next rest =>
    by_cases none : rest.takeWhile isDigit = []
    · left
      simp [none]
    · right
      refine ⟨rest.takeWhile isDigit, rest.dropWhile isDigit, ?_, none, ?_, ?_⟩
      · simp [none]
      · exact (longest_takeWhile isDigit rest).formed
      · rw [List.takeWhile_append_dropWhile]
  · exact .inl rfl

theorem fractionChars_isPrefix (text : List CodePoint) : fractionChars text <+: text := by
  rcases fractionChars_cases text with none | ⟨part, rest, taken, -, -, split⟩
  · rw [none]
    exact List.nil_prefix
  · rw [taken, split]
    exact List.prefix_append (scalar '.' :: part) rest

theorem fraction_eq (text : List CodePoint) :
    (numberParts text).fraction = fractionChars (text.drop (numberParts text).whole.length) := rfl

theorem whole_append_drop (text : List CodePoint) :
    (numberParts text).whole ++ text.drop (numberParts text).whole.length = text :=
  List.prefix_iff_eq_append.mp (List.takeWhile_prefix _)

/-- Where a digit, or a point in front of one, begins a text, the scanner reads a numeral. -/
theorem denotes_numberParts (start : isDigit c = true ∨ c = scalar '.' ∧ startsWith isDigit rest = true) :
    Denotes ((numberParts (c :: rest)).whole ++ (numberParts (c :: rest)).fraction)
      (numberParts (c :: rest)).value? := by
  have each : Run isDigit (numberParts (c :: rest)).whole := (longest_takeWhile isDigit _).formed
  rcases fractionChars_cases ((c :: rest).drop (numberParts (c :: rest)).whole.length) with
    none | ⟨part, more, taken, nonempty, behind, -⟩
  · have some : (numberParts (c :: rest)).whole ≠ [] := by
      intro empty
      rcases start with digit | ⟨rfl, begins⟩
      · simp [numberParts, digit] at empty
      · cases rest with
        | nil => cases begins
        | cons d rest =>
          have digit : isDigit d = true := begins
          rw [empty] at none
          simp [fractionChars, digit] at none
    rw [← fraction_eq] at none
    rw [none, List.append_nil]
    exact .whole some each (by rw [NumberParts.value?, none])
  · rw [← fraction_eq] at taken
    rw [taken]
    exact .point each nonempty behind (by rw [NumberParts.value?, taken])

theorem longest_numberParts (start : isDigit c = true ∨ c = scalar '.' ∧ startsWith isDigit rest = true) :
    Longest IsNumeral (c :: rest)
      ((numberParts (c :: rest)).whole ++ (numberParts (c :: rest)).fraction) where
  formed := ⟨_, denotes_numberParts start⟩
  leads := by
    have leads := (List.prefix_append_right_inj (numberParts (c :: rest)).whole).mpr
      (fractionChars_isPrefix ((c :: rest).drop (numberParts (c :: rest)).whole.length))
    rwa [whole_append_drop] at leads
  longest := by
    rintro other ⟨number, denotes⟩ leads
    rw [List.length_append]
    cases denotes with
    | whole nonempty each =>
      have shorter := (longest_takeWhile isDigit (c :: rest)).longest _ each leads
      exact Nat.le_trans shorter (Nat.le_add_right _ _)
    | point each nonempty behind =>
      obtain ⟨more, split⟩ := leads
      rw [List.append_assoc, List.cons_append] at split
      obtain ⟨digits, front, -, whole, fraction⟩ := numberParts_point each nonempty behind more
      rw [split] at whole fraction
      have shorter := front.length_le
      rw [whole, fraction, List.length_append, List.length_cons, List.length_cons]
      omega

theorem longest_unitChars (text : List CodePoint) :
    Longest (fun suffix => suffix = [] ∨ IsUnit suffix) text (unitChars text) := by
  unfold unitChars
  split
  · next rest =>
    refine ⟨.inr .percent, List.cons_prefix_cons.mpr ⟨rfl, List.nil_prefix⟩, ?_⟩
    rintro other (rfl | percent | ⟨nonempty, each⟩) leads
    · exact Nat.zero_le _
    · exact Nat.le_refl _
    · obtain ⟨d, other, rfl⟩ := List.exists_cons_of_ne_nil nonempty
      obtain ⟨rfl, -⟩ := List.cons_prefix_cons.mp leads
      exact absurd (each (scalar '%') (List.mem_cons_self ..)) (by decide)
  · next other' =>
    have longest := longest_takeWhile isLetter text
    refine ⟨?_, longest.leads, ?_⟩
    · by_cases none : text.takeWhile isLetter = []
      · exact .inl none
      · exact .inr (.letters none longest.formed)
    · rintro other (rfl | percent | ⟨nonempty, each⟩) leads
      · exact Nat.zero_le _
      · obtain ⟨rest, split⟩ := leads
        exact absurd split.symm (other' rest)
      · exact longest.longest other each leads

end StyleExpr.Lexeme
