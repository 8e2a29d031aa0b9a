import StyleExpr.Expr.Canonical
import StyleExpr.Proofs.Lexeme.Scan
import StyleExpr.Proofs.Number.ReadBack

/-! What is scanned off the written form of a lexeme, whatever text comes behind it. -/

namespace StyleExpr.Lexeme

open Text

/-- The lexeme is scanned off the front of a text, which is its first character and more, and the
rest is left. -/
def Reads (front rest : List CodePoint) (lexeme : Lexeme) : Prop :=
  ∃ c back, front = c :: back ∧ isSpace c = false ∧
    scan c (back ++ rest) = ⟨front.length, .ok lexeme⟩

/-- What stands behind an operand: the end, a blank, a comma or a parenthesis. -/
def Breaks (rest : List CodePoint) : Prop :=
  ∀ c ∈ rest.head?, c ∈ [scalar ' ', scalar ',', scalar '(', scalar ')']

variable {rest : List CodePoint} {c : CodePoint}

theorem breaks_nil : Breaks [] := by
  simp [Breaks]

theorem breaks_cons (member : c ∈ [scalar ' ', scalar ',', scalar '(', scalar ')']) : Breaks (c :: rest) := by
  rintro d ⟨⟩
  exact member

theorem Breaks.none_of {p : CodePoint → Bool} (breaks : Breaks rest)
    (outside : [scalar ' ', scalar ',', scalar '(', scalar ')'].any p = false) :
    ∀ c ∈ rest.head?, p c = false :=
  fun c next => Bool.eq_false_iff.mpr (List.any_eq_false.mp outside c (breaks c next))

theorem reads_name {name : List CodePoint} (named : IsName name)
    (stop : ∀ c ∈ rest.head?, isWord c = false ∧ c ≠ scalar '-') : Reads name rest (ofName name) := by
  obtain ⟨hyphenated, start⟩ := named
  cases name with
  | nil => cases start
  | cons c back =>
    have taken := nameFront_hyphenated hyphenated false stop
    refine ⟨c, back, rfl, isSpace_of_startsName start, ?_⟩
    rw [scan_name start, scanName, nameChars, ← List.cons_append, taken]

theorem reads_reference {name : List CodePoint} (named : IsName name)
    (stop : ∀ c ∈ rest.head?, isWord c = false ∧ c ≠ scalar '-') :
    Reads (scalar '!' :: name) rest ⟨.reference, .text (Text.ofList name), none⟩ := by
  obtain ⟨hyphenated, start⟩ := named
  have taken := nameFront_hyphenated hyphenated false stop
  have begins : startsWith startsName (name ++ rest) = true := by
    cases name with
    | nil => cases start
    | cons c back => exact start
  refine ⟨scalar '!', name, rfl, by decide, ?_⟩
  rw [scan_reference begins, scanReference, nameChars, taken]
  rfl

theorem quotedBody?_escaped (content rest : List CodePoint) :
    quotedBody? (Canonical.escaped content ++ scalar '\x22' :: rest) = some (Canonical.escaped content) := by
  induction content with
  | nil => rfl
  | cons c content ih =>
    rw [Canonical.escaped]
    by_cases mark : c = scalar '\\' ∨ c = scalar '\x22'
    · rw [if_pos (by simpa using mark)]
      simp [quotedBody?, ih]
    · rw [if_neg (by simpa using mark)]
      rw [not_or] at mark
      rw [List.cons_append, quotedBody?.eq_5]
      · rw [ih, Option.map_some]
      · exact mark.2
      · exact fun slash _ => mark.1 slash
      · exact fun _ _ slash _ => mark.1 slash

theorem unescaped_escaped (content : List CodePoint) :
    unescaped (Canonical.escaped content) = content := by
  induction content with
  | nil => rfl
  | cons c content ih =>
    rw [Canonical.escaped]
    by_cases mark : c = scalar '\\' ∨ c = scalar '\x22'
    · rw [if_pos (by simpa using mark)]
      simp [unescaped, ih]
    · rw [if_neg (by simpa using mark)]
      rw [not_or] at mark
      rw [unescaped.eq_4, ih]
      · exact fun slash _ => mark.1 slash
      · exact fun _ _ slash _ => mark.1 slash

theorem reads_string (content rest : List CodePoint) :
    Reads (scalar '\x22' :: Canonical.escaped content ++ [scalar '\x22']) rest
      ⟨.string, .text (Text.ofList content), none⟩ := by
  refine ⟨scalar '\x22', Canonical.escaped content ++ [scalar '\x22'], rfl, by decide, ?_⟩
  rw [scan_quotation, scanQuotation, List.append_assoc, List.singleton_append, quotedBody?_escaped]
  simp [unescaped_escaped]

theorem hexDigits : ∀ n < 16,
    hexValue? n.digitChar = some n ∧ isAlphanumeric n.digitChar = true := by
  decide

theorem hexadecimal_channel {n : Nat} (small : n < 256) :
    hexadecimal 2 n = [scalar (n / 16).digitChar, scalar (n % 16).digitChar] := by
  by_cases single : n < 16
  · rw [hexadecimal, Text.digits_of_lt_base single, Nat.div_eq_of_lt single,
      Nat.mod_eq_of_lt single]
    rfl
  · have first : n / 16 < 16 := by omega
    rw [hexadecimal, Text.digits_of_base_le (by decide) (Nat.not_lt.mp single),
      Text.digits_of_lt_base first]
    rfl

theorem alphanumeric_channel {n : Nat} (small : n < 256) :
    ∀ c ∈ hexadecimal 2 n, isAlphanumeric c = true := by
  intro c member
  simp only [hexadecimal_channel small, List.mem_cons, List.not_mem_nil, or_false] at member
  rcases member with rfl | rfl
  · exact (hexDigits _ (by omega)).2
  · exact (hexDigits _ (by omega)).2

theorem channels?_hexadecimal {red green blue : Nat} (smallRed : red < 256) (smallGreen : green < 256)
    (smallBlue : blue < 256) :
    channels? (hexadecimal 2 red ++ hexadecimal 2 green ++ hexadecimal 2 blue) =
      some [(red : Int), green, blue] := by
  have high (n : Nat) (small : n < 256) := (hexDigits (n / 16) (by omega)).1
  have low (n : Nat) := (hexDigits (n % 16) (by omega)).1
  have whole (n : Nat) : 16 * ((n / 16 : Nat) : Int) + (n % 16 : Nat) = n := by omega
  rw [hexadecimal_channel smallRed, hexadecimal_channel smallGreen, hexadecimal_channel smallBlue]
  simp only [channels?, List.cons_append, List.nil_append, List.mapM_cons, List.mapM_nil, high _ smallRed,
    high _ smallGreen, high _ smallBlue, low, Option.bind_eq_bind, Option.bind_some, Option.pure_def,
    whole]

theorem reads_color {red green blue : Nat} (smallRed : red < 256) (smallGreen : green < 256)
    (smallBlue : blue < 256) (stop : ∀ c ∈ rest.head?, isAlphanumeric c = false) :
    Reads (scalar '#' :: (hexadecimal 2 red ++ hexadecimal 2 green ++ hexadecimal 2 blue)) rest
      ⟨.color, .tuple [red, green, blue], none⟩ := by
  have each : ∀ c ∈ hexadecimal 2 red ++ hexadecimal 2 green ++ hexadecimal 2 blue,
      isAlphanumeric c = true := by
    intro c member
    rcases List.mem_append.mp member with member | member
    · rcases List.mem_append.mp member with member | member
      · exact alphanumeric_channel smallRed c member
      · exact alphanumeric_channel smallGreen c member
    · exact alphanumeric_channel smallBlue c member
  refine ⟨scalar '#', _, rfl, by decide, ?_⟩
  rw [scan_color, scanColor, colorDigits, takeWhile_run each stop,
    channels?_hexadecimal smallRed smallGreen smallBlue]
  rfl

inductive IsUnit : List CodePoint → Prop where
  | percent : IsUnit [scalar '%']
  | letters {text : List CodePoint} (nonempty : text ≠ []) (each : ∀ c ∈ text, isLetter c = true) :
    IsUnit text

/-- What may stand behind the whole digits of a number: nothing, or the point and digits. -/
inductive IsFraction : List CodePoint → Prop where
  | none : IsFraction []
  | point {part : List CodePoint} (nonempty : part ≠ []) (plain : Plain part) :
    IsFraction (scalar '.' :: part)

variable {whole fraction suffix : List CodePoint}

/-- Neither a digit nor a point comes behind a number. -/
theorem suffix_stops (measured : suffix = [] ∨ IsUnit suffix) (breaks : Breaks rest) :
    ∀ c ∈ (suffix ++ rest).head?, isDigit c = false ∧ c ≠ scalar '.' := by
  rcases measured with rfl | percent | ⟨nonempty, each⟩
  · intro c next
    refine ⟨breaks.none_of (by decide) c next, ?_⟩
    rintro rfl
    exact absurd (breaks _ next) (by decide)
  · rintro c ⟨⟩
    decide
  · obtain ⟨d, suffix, rfl⟩ := List.exists_cons_of_ne_nil nonempty
    have letter := each d (List.mem_cons_self ..)
    rintro c ⟨⟩
    refine ⟨isDigit_of_isLetter letter, ?_⟩
    rintro rfl
    revert letter
    decide

theorem fractionChars_run (pointed : IsFraction fraction)
    (stops : ∀ c ∈ rest.head?, isDigit c = false ∧ c ≠ scalar '.') :
    fractionChars (fraction ++ rest) = fraction := by
  cases pointed with
  | none =>
    rw [List.nil_append, fractionChars.eq_2]
    rintro _ rfl
    exact (stops (scalar '.') rfl).2 rfl
  | @point part nonempty plain =>
    have taken : (part ++ rest).takeWhile isDigit = part :=
      takeWhile_run (isDigit_of_plain plain) fun c next => (stops c next).1
    simp [fractionChars, taken, nonempty]

theorem unitChars_run (measured : suffix = [] ∨ IsUnit suffix) (breaks : Breaks rest) :
    unitChars (suffix ++ rest) = suffix := by
  have ended : ∀ c ∈ rest.head?, isLetter c = false := breaks.none_of (by decide)
  rcases measured with rfl | percent | ⟨nonempty, each⟩
  · have run : ([] ++ rest).takeWhile isLetter = [] := takeWhile_run (by simp) ended
    rw [unitChars.eq_2]
    · exact run
    · rintro _ rfl
      exact absurd (breaks (scalar '%') rfl) (by decide)
  · rfl
  · rw [unitChars.eq_2]
    · exact takeWhile_run each ended
    · intro more same
      obtain ⟨d, suffix, rfl⟩ := List.exists_cons_of_ne_nil nonempty
      obtain ⟨rfl, -⟩ := List.cons.inj same
      exact absurd (each (scalar '%') (List.mem_cons_self ..)) (by decide)

theorem numberParts_run (plain : Plain whole) (pointed : IsFraction fraction)
    (measured : suffix = [] ∨ IsUnit suffix) (breaks : Breaks rest) :
    numberParts (whole ++ (fraction ++ (suffix ++ rest))) = ⟨whole, fraction, suffix⟩ := by
  have stops := suffix_stops measured breaks
  have next : ∀ c ∈ (fraction ++ (suffix ++ rest)).head?, isDigit c = false := by
    cases pointed with
    | none => exact fun c next => (stops c next).1
    | point =>
      rintro c ⟨⟩
      decide
  have digits := takeWhile_run (isDigit_of_plain plain) next
  have dropped : (whole ++ (fraction ++ (suffix ++ rest))).drop (whole.length + fraction.length) =
      suffix ++ rest := by
    rw [← List.append_assoc, List.drop_left' List.length_append]
  simp only [numberParts, digits, List.drop_left, fractionChars_run pointed stops, dropped,
    unitChars_run measured breaks]

theorem reads_number {value : Value} (nonempty : whole ≠ []) (plain : Plain whole)
    (pointed : IsFraction fraction) (measured : suffix = [] ∨ IsUnit suffix) (breaks : Breaks rest)
    (denoted : (NumberParts.mk whole fraction suffix).value? = .ok value) :
    Reads (whole ++ (fraction ++ suffix)) rest
      ⟨.number, value, (NumberParts.mk whole fraction suffix).unit?⟩ := by
  obtain ⟨c, back, rfl⟩ := List.exists_cons_of_ne_nil nonempty
  have digit := isDigit_of_plain plain c (List.mem_cons_self ..)
  have parts := numberParts_run plain pointed measured breaks
  refine ⟨c, back ++ (fraction ++ suffix), rfl, isSpace_of_isDigit digit, ?_⟩
  rw [scan_number digit, ← List.cons_append, ← List.cons_append, List.append_assoc, List.append_assoc,
    scanNumber, parts]
  simp [denoted, NumberParts.length]
  omega

theorem symbol?_double {d : CodePoint} {kind : TokenKind} (spelled : spelled? [c, d] = some kind) :
    symbol? (c :: d :: rest) = some ([c, d], kind) := by
  simp [symbol?, spelled]

theorem symbol?_single {kind : TokenKind} (spelled : spelled? [c] = some kind)
    (alone : ∀ d ∈ rest.head?, spelled? [c, d] = none) : symbol? (c :: rest) = some ([c], kind) := by
  cases rest with
  | nil => simp [symbol?, spelled]
  | cons d rest => simp [symbol?, spelled, alone d rfl]

/-- A spelling of one sign is read unless the next character makes a longer one of it. -/
theorem reads_single {kind : TokenKind} (sign : c ∈ signs) (spelled : spelled? [c] = some kind)
    (alone : ∀ d ∈ rest.head?, spelled? [c, d] = none) :
    Reads [c] rest ⟨kind, .text (Text.ofList [c]), none⟩ := by
  have other : c ≠ scalar '\x22' ∧ c ≠ scalar '#' := by
    constructor <;> rintro rfl <;> cases spelled
  have unnamed : c = scalar '!' → startsWith startsName ([] ++ rest) = false := by
    rintro rfl
    cases spelled
  refine ⟨c, [], rfl, (outside_of_signs c sign).2.2.2, ?_⟩
  rw [scan_symbol sign other unnamed, scanSymbol, List.nil_append, symbol?_single spelled alone]
  rfl

theorem reads_double {d : CodePoint} {kind : TokenKind} (sign : c ∈ signs)
    (spelled : spelled? [c, d] = some kind) (unnamed : startsName d = false) :
    Reads [c, d] rest ⟨kind, .text (Text.ofList [c, d]), none⟩ := by
  have other : c ≠ scalar '\x22' ∧ c ≠ scalar '#' := by
    constructor <;> rintro rfl <;> cases spelled
  refine ⟨c, [d], rfl, (outside_of_signs c sign).2.2.2, ?_⟩
  have alone : c = scalar '!' → startsWith startsName (d :: rest) = false := fun _ => unnamed
  rw [List.singleton_append, scan_symbol sign other alone, scanSymbol, symbol?_double spelled]
  rfl

end StyleExpr.Lexeme
