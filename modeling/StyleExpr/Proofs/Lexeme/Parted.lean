import StyleExpr.Proofs.Lexeme.Sealed

/-! Lexemes that a blank or the end of the text parts from what follows. Whatever stood behind a lexeme
where it was read, it is read again where a blank or the end comes next. -/

namespace StyleExpr.Lexeme

open Text

theorem delimiter_of_isSpace {c : CodePoint} (space : isSpace c = true) : Delimiter c := by
  simp only [isSpace, Bool.or_eq_true, decide_eq_true_eq] at space
  rcases space with (((rfl | rfl) | rfl) | rfl) | rfl <;>
    exact ⟨by decide, by decide, by decide, by decide, by decide, by decide⟩

/-- A blank comes next, or the end. -/
def Parted (rest : List CodePoint) : Prop :=
  ∀ c ∈ rest.head?, isSpace c = true

variable {form : List CodePoint → Prop} {isMember : CodePoint → Bool}
variable {shared front rest rest' : List CodePoint} {lexeme : Lexeme}

theorem parted_nil : Parted [] := by
  simp [Parted]

theorem Run.parted (run : Run isSpace rest) : Parted rest :=
  fun c next => run c (List.mem_of_mem_head? next)

theorem parted_append {blanks : List CodePoint} (run : Run isSpace blanks) (nonempty : blanks ≠ [])
    (rest : List CodePoint) : Parted (blanks ++ rest) := by
  obtain ⟨d, blanks, rfl⟩ := List.exists_cons_of_ne_nil nonempty
  rintro c ⟨⟩
  exact run d (List.mem_cons_self ..)

/-- A longest match in front of some rest is the longest one where a blank or the end comes instead. -/
theorem Longest.parted (lacks : ∀ c, isSpace c = true → Lacks c form) (parted : Parted rest')
    (inside : front <+: shared) (longest : Longest form (shared ++ rest) front) :
    Longest form (shared ++ rest') front where
  formed := longest.formed
  leads := inside.trans (List.prefix_append ..)
  longest := by
    intro other formed leads
    have within : other <+: shared := by
      cases rest' with
      | nil => rwa [List.append_nil] at leads
      | cons c rest' => exact isPrefix_of_lacking (lacks c (parted c rfl) _ formed) leads
    exact longest.longest other formed (within.trans (List.prefix_append ..))

theorem lacks_spelling {c : CodePoint} (space : isSpace c = true) : Lacks c IsSpelling := by
  rintro text ⟨kind, spelled⟩ member
  unfold spelled? at spelled
  have solid : text.all (fun d => !isSpace d) = true := by
    split at spelled <;> cases spelled <;> rfl
  have outside := List.all_eq_true.mp solid c member
  rw [space] at outside
  cases outside

theorem startsWith_parted (parted : Parted rest')
    (outside : ∀ c, isSpace c = true → isMember c = false)
    (start : startsWith isMember (shared ++ rest') = true) :
    startsWith isMember (shared ++ rest) = true := by
  cases shared with
  | cons => exact start
  | nil =>
    cases rest' with
    | nil => cases start
    | cons c rest' =>
      have member : isMember c = true := start
      rw [outside c (parted c rfl)] at member
      cases member

theorem startsWith_append (nonempty : front ≠ []) (rest' : List CodePoint)
    (start : startsWith isMember (front ++ rest) = true) :
    startsWith isMember (front ++ rest') = true := by
  obtain ⟨c, front, rfl⟩ := List.exists_cons_of_ne_nil nonempty
  exact start

theorem ne_nil_of_hyphenated (hyphenated : Hyphenated front) : front ≠ [] := by
  rintro rfl
  cases hyphenated.starts []

theorem Denotes.opens {digits : List CodePoint} {number : Except NumeralFault Value}
    (denotes : Denotes digits number) (rest : List CodePoint) : Opens (digits ++ rest) .number := by
  cases denotes with
  | whole nonempty each =>
    obtain ⟨c, digits, rfl⟩ := List.exists_cons_of_ne_nil nonempty
    exact .digit (each c (List.mem_cons_self ..))
  | @point digits part _ each nonempty behind =>
    cases digits with
    | nil =>
      obtain ⟨c, part, rfl⟩ := List.exists_cons_of_ne_nil nonempty
      exact .point (behind c (List.mem_cons_self ..))
    | cons c digits => exact .digit (each c (List.mem_cons_self ..))

theorem Opens.parted {opening : Opening} (nonempty : front ≠ []) (parted : Parted rest')
    (opens : Opens (front ++ rest') opening) (rest : List CodePoint) : Opens (front ++ rest) opening := by
  obtain ⟨c, front, rfl⟩ := List.exists_cons_of_ne_nil nonempty
  cases opens with
  | name start => exact .name start
  | reference sigil start =>
    have named : ∀ c, isSpace c = true → startsName c = false := fun c space => by
      rw [← Bool.not_eq_true]
      intro start
      rw [isSpace_of_startsName start] at space
      cases space
    exact .reference sigil (startsWith_parted parted named start)
  | digit digit => exact .digit digit
  | point digit =>
    have digits : ∀ c, isSpace c = true → isDigit c = false := fun c space =>
      (delimiter_of_isSpace space).digit
    exact .point (startsWith_parted parted digits digit)
  | quotation => exact .quotation
  | color => exact .color

/-- A lexeme in front of some rest is the same one where a blank or the end comes instead. -/
theorem Lexical.parted (nonempty : front ≠ []) (parted : Parted rest')
    (lexical : Lexical (front ++ rest) front (.ok lexeme)) :
    Lexical (front ++ rest') front (.ok lexeme) := by
  generalize whole : front ++ rest = text at lexical
  generalize given : Except.ok lexeme = found at lexical
  cases lexical with
  | name opens longest word =>
    subst whole
    cases given
    obtain ⟨c, front, rfl⟩ := List.exists_cons_of_ne_nil nonempty
    refine .name (.name (startsName_of_opens opens)) ?_ word
    exact longest.parted (fun _ space => (delimiter_of_isSpace space).lacks_hyphenated) parted List.prefix_rfl
  | reference opens split longest =>
    cases given
    rw [← whole, List.cons_append] at split opens
    obtain ⟨-, rfl⟩ := List.cons.inj split
    have start := startsWith_append (ne_nil_of_hyphenated longest.formed) rest' (startsName_of_reference opens)
    cases opens with
    | reference sigil =>
      refine .reference (.reference sigil start) rfl ?_
      exact longest.parted (fun _ space => (delimiter_of_isSpace space).lacks_hyphenated) parted List.prefix_rfl
  | @number digits behind suffix number opens longest split unit denotes =>
    rw [← whole, List.append_assoc] at split
    obtain rfl := List.append_cancel_left split
    rw [← whole] at longest
    have inside : digits <+: digits ++ suffix := List.prefix_append ..
    have longest' := longest.parted (fun _ space => (delimiter_of_isSpace space).lacks_numeral) parted inside
    have unit' := unit.parted (fun _ space => (delimiter_of_isSpace space).lacks_unit) parted List.prefix_rfl
    rw [List.append_assoc] at longest' ⊢
    exact .number (denotes.opens _) longest' rfl unit' denotes
  | @quotation _ body content split quoted =>
    cases given
    have behind : scalar '\x22' :: (body ++ [scalar '\x22']) ++ rest' =
        scalar '\x22' :: (body ++ scalar '\x22' :: rest') := by
      simp only [List.cons_append, List.append_assoc, List.nil_append]
    exact .quotation behind quoted
  | color split longest color =>
    cases given
    rw [← whole, List.cons_append] at split
    obtain ⟨-, rfl⟩ := List.cons.inj split
    refine .color rfl ?_ color
    exact longest.parted (fun _ space => lacks_run (delimiter_of_isSpace space).alphanumeric) parted List.prefix_rfl
  | symbol unopened longest spelled =>
    subst whole
    cases given
    refine .symbol (fun opening opens => unopened opening (opens.parted nonempty parted _)) ?_ spelled
    exact longest.parted (fun _ space => lacks_spelling space) parted List.prefix_rfl
  | unterminated | discolored | unexpected => cases given

theorem Reads.parted (parted : Parted rest') (reads : Reads front rest lexeme) :
    Reads front rest' lexeme := by
  obtain ⟨⟨c, back, rfl, solid⟩, lexical⟩ := reads_iff.mp reads
  exact reads_iff.mpr ⟨⟨c, back, rfl, solid⟩, lexical.parted (List.cons_ne_nil _ _) parted⟩

end StyleExpr.Lexeme
