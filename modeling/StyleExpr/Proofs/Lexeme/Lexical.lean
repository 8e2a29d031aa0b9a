import StyleExpr.Proofs.Lexeme.Delimited
import StyleExpr.Proofs.Source.Lexing

/-! The lexical grammar, told without a scanner: the first one or two characters of a text open a
lexeme of some form, and the longest match is taken. Main statement: `nextToken_eq_iff`, by which
reading a token is exactly to skip the blanks and take the lexeme that the grammar tells. -/

namespace StyleExpr

namespace Lexeme

open Text

/-- The forms of lexemes that are known by their first characters. All others are looked up among the
fixed spellings. -/
inductive Opening where
  | name | reference | number | quotation | color

/-- The first one or two characters tell the form of a lexeme. -/
inductive Opens : List CodePoint → Opening → Prop where
  | name (start : startsName c = true) : Opens (c :: rest) .name
  | reference (sigil : c = scalar '!' ∨ c = scalar '$') (start : startsWith startsName rest = true) :
      Opens (c :: rest) .reference
  | digit (digit : isDigit c = true) : Opens (c :: rest) .number
  | point (digit : startsWith isDigit rest = true) : Opens (scalar '.' :: rest) .number
  | quotation : Opens (scalar '\x22' :: rest) .quotation
  | color : Opens (scalar '#' :: rest) .color

inductive Classified (name : List CodePoint) : Lexeme → Prop where
  | keyword {kind : TokenKind} (spelled : spelled? name = some kind) :
      Classified name ⟨kind, .text (Text.ofList name), none⟩
  | truth {truth : Bool} (word : truthWord? (Text.ofList name) = some truth) :
      Classified name ⟨.bool, .bool truth, none⟩
  | color {channels : List Int} (word : namedColor? (Text.ofList name) = some channels) :
      Classified name ⟨.color, .tuple channels, none⟩
  | identifier (keyword : spelled? name = none) (truth : truthWord? (Text.ofList name) = none)
      (color : namedColor? (Text.ofList name) = none) :
      Classified name ⟨.identifier, .text (Text.ofList name), none⟩

def IsSpelling (text : List CodePoint) : Prop :=
  ∃ kind, spelled? text = some kind

def unitOf (suffix : List CodePoint) : Option Text :=
  if suffix = [] then none else some (Text.ofList suffix)

def ofNumber (suffix : List CodePoint) : Except NumeralFault Value → Except Flaw Lexeme
  | .ok value => .ok ⟨.number, value, unitOf suffix⟩
  | .error fault => .error (.numeral fault)

/-- `Lexical text front found`: of a text that begins with no blank, the characters of `front` are
taken and `found` is made of them. -/
inductive Lexical : List CodePoint → List CodePoint → Except Flaw Lexeme → Prop where
  | name (opens : Opens text .name) (longest : Longest Hyphenated text name)
      (word : Classified name lexeme) : Lexical text name (.ok lexeme)
  /-- A reference may be spelled like a keyword. -/
  | reference (opens : Opens text .reference) (split : text = c :: rest)
      (longest : Longest Hyphenated rest name) :
      Lexical text (c :: name) (.ok ⟨.reference, .text (Text.ofList name), none⟩)
  | number (opens : Opens text .number) (longest : Longest IsNumeral text digits)
      (split : text = digits ++ rest)
      (unit : Longest (fun suffix => suffix = [] ∨ IsUnit suffix) rest suffix)
      (denotes : Denotes digits number) :
      Lexical text (digits ++ suffix) (ofNumber suffix number)
  | quotation {body content : List CodePoint}
      (split : text = scalar '\x22' :: (body ++ scalar '\x22' :: rest))
      (quoted : Quoted body content) :
      Lexical text (scalar '\x22' :: (body ++ [scalar '\x22']))
        (.ok ⟨.string, .text (Text.ofList content), none⟩)
  | unterminated (split : text = scalar '\x22' :: rest)
      (open' : ∀ body content behind, Quoted body content → rest ≠ body ++ scalar '\x22' :: behind) :
      Lexical text text (.error (.problem .unterminatedString))
  | color {channels : List Int} (split : text = scalar '#' :: rest)
      (longest : Longest (Run isAlphanumeric) rest digits) (color : HexColor digits channels) :
      Lexical text (scalar '#' :: digits) (.ok ⟨.color, .tuple channels, none⟩)
  | discolored (split : text = scalar '#' :: rest) (longest : Longest (Run isAlphanumeric) rest digits)
      (none : ∀ channels, ¬ HexColor digits channels) :
      Lexical text (scalar '#' :: digits) (.error (.problem (.invalidColor (Text.ofList digits))))
  | symbol {kind : TokenKind} (other : ∀ opening, ¬ Opens text opening)
      (longest : Longest IsSpelling text front) (spelled : spelled? front = some kind) :
      Lexical text front (.ok ⟨kind, .text (Text.ofList front), none⟩)
  /-- A character that begins no lexeme is left unread. -/
  | unexpected (other : ∀ opening, ¬ Opens text opening) (split : text = c :: rest)
      (none : ∀ front, IsSpelling front → ¬ front <+: text) :
      Lexical text [] (.error (.problem (.unexpectedCharacter c)))

variable {text front name digits suffix rest : List CodePoint} {c : CodePoint} {kind : TokenKind}
variable {lexeme : Lexeme} {found : Except Flaw Lexeme}

theorem spelled?_apart (keyword : spelled? name = some kind) :
    truthWord? (Text.ofList name) = none ∧ namedColor? (Text.ofList name) = none := by
  unfold spelled? at keyword
  split at keyword <;> first | exact ⟨rfl, rfl⟩ | cases keyword

theorem truthWord?_apart {word : Text} {truth : Bool} (found : truthWord? word = some truth) :
    namedColor? word = none := by
  unfold truthWord? at found
  split at found
  · next yes => rw [yes]; rfl
  split at found
  · next no => rw [no]; rfl
  · cases found

theorem classified_iff : Classified name lexeme ↔ ofName name = lexeme := by
  constructor
  · intro classified
    cases classified with
    | keyword spelled => simp only [ofName, spelled]
    | truth word =>
      cases keyword : spelled? name with
      | some kind =>
        rw [(spelled?_apart keyword).1] at word
        cases word
      | none => simp only [ofName, keyword, word]
    | color word =>
      cases keyword : spelled? name with
      | some kind =>
        rw [(spelled?_apart keyword).2] at word
        cases word
      | none =>
        cases truth : truthWord? (Text.ofList name) with
        | some value =>
          rw [truthWord?_apart truth] at word
          cases word
        | none => simp only [ofName, keyword, truth, word]
    | identifier keyword truth color => simp only [ofName, keyword, truth, color]
  · rintro rfl
    cases keyword : spelled? name with
    | some kind =>
      simp only [ofName, keyword]
      exact .keyword keyword
    | none =>
      cases truth : truthWord? (Text.ofList name) with
      | some value =>
        simp only [ofName, keyword, truth]
        exact .truth truth
      | none =>
        cases color : namedColor? (Text.ofList name) with
        | some channels =>
          simp only [ofName, keyword, truth, color]
          exact .color color
        | none =>
          simp only [ofName, keyword, truth, color]
          exact .identifier keyword truth color

theorem Denotes.unique {first second : Except NumeralFault Value} (denotes : Denotes digits first)
    (denotes' : Denotes digits second) : first = second := by
  have whole {digits part : List CodePoint} (each : Run isDigit (digits ++ scalar '.' :: part)) : False := by
    have point := each (scalar '.') (List.mem_append_right _ (List.mem_cons_self ..))
    rw [isDigit_point] at point
    cases point
  cases denotes with
  | whole nonempty each read =>
    generalize same : digits = text at denotes'
    cases denotes' with
    | whole _ _ read' =>
      subst same
      exact read.symm.trans read'
    | point =>
      subst same
      exact (whole each).elim
  | @point front part _ each nonempty behind read =>
    generalize same : front ++ scalar '.' :: part = text at denotes'
    cases denotes' with
    | whole _ each' =>
      subst same
      exact (whole each').elim
    | @point front' part' _ each' _ _ read' =>
      have heads := takeWhile_digits each part
      rw [same, takeWhile_digits each'] at heads
      subst heads
      obtain ⟨-, rfl⟩ := List.cons.inj (List.append_cancel_left same)
      exact read.symm.trans read'

def Opening.scan (c : CodePoint) (rest : List CodePoint) : Opening → Scan
  | .name => scanName (c :: rest)
  | .reference => scanReference rest
  | .number => scanNumber (c :: rest)
  | .quotation => scanQuotation rest
  | .color => scanColor rest

theorem scan_of_opens {opening : Opening} (opens : Opens (c :: rest) opening) :
    scan c rest = opening.scan c rest := by
  cases opens with
  | name start => exact scan_name start
  | reference sigil start =>
    have outside : startsName c = false := by
      rcases sigil with rfl | rfl <;> decide
    simp [scan, outside, sigil, start, Opening.scan]
  | digit digit => exact scan_number digit
  | point digit =>
    have outside : startsName (scalar '.') = false := by decide
    simp [scan, outside, digit, Opening.scan]
  | quotation => exact scan_quotation
  | color => exact scan_color

theorem scan_of_unopened (unopened : ∀ opening, ¬ Opens (c :: rest) opening) :
    scan c rest =
      (scanSymbol (c :: rest)).getD ⟨0, .error (.problem (.unexpectedCharacter c))⟩ := by
  unfold scan
  rw [if_neg, if_neg, if_neg, if_neg, if_neg]
  · rintro rfl
    exact unopened _ .color
  · rintro rfl
    exact unopened _ .quotation
  · intro start
    simp only [Bool.or_eq_true, Bool.and_eq_true, decide_eq_true_eq] at start
    rcases start with digit | ⟨rfl, digit⟩
    · exact unopened _ (.digit digit)
    · exact unopened _ (.point digit)
  · intro start
    simp only [Bool.and_eq_true, Bool.or_eq_true, decide_eq_true_eq] at start
    exact unopened _ (.reference start.1 start.2)
  · exact fun start => unopened _ (.name start)

theorem startsName_of_opens (opens : Opens text .name) : startsWith startsName text = true := by
  cases opens with
  | name start => exact start

theorem startsName_of_reference (opens : Opens (c :: rest) .reference) :
    startsWith startsName rest = true := by
  cases opens with
  | reference _ start => exact start

theorem isDigit_of_opens (opens : Opens (c :: rest) .number) :
    isDigit c = true ∨ c = scalar '.' ∧ startsWith isDigit rest = true := by
  cases opens with
  | digit digit => exact .inl digit
  | point digit => exact .inr ⟨rfl, digit⟩

theorem scanNumber_eq
    (split : text = (numberParts text).whole ++ (numberParts text).fraction ++ rest) :
    scanNumber text =
      ⟨((numberParts text).whole ++ (numberParts text).fraction ++ unitChars rest).length,
        ofNumber (unitChars rest) (numberParts text).value?⟩ := by
  have dropped : text.drop ((numberParts text).whole ++ (numberParts text).fraction).length = rest :=
    (congrArg (List.drop _) split).trans List.drop_left
  have unit : (numberParts text).unit = unitChars rest := by
    rw [List.length_append] at dropped
    exact congrArg unitChars dropped
  have shown : (numberParts text).unit? = unitOf (unitChars rest) := by
    rw [NumberParts.unit?, unit, unitOf]
    cases unitChars rest <;> rfl
  rw [scanNumber]
  simp only [NumberParts.length, unit, shown, List.length_append]
  cases (numberParts text).value? <;> rfl

theorem scanQuotation_quoted {body content : List CodePoint} (quoted : Quoted body content) :
    scanQuotation (body ++ scalar '\x22' :: rest) =
      ⟨body.length + 2, .ok ⟨.string, .text (Text.ofList content), none⟩⟩ := by
  simp only [scanQuotation, quoted.quotedBody?_eq rest, quoted.unescaped_eq]

theorem scanQuotation_open
    (open' : ∀ body content behind, Quoted body content → rest ≠ body ++ scalar '\x22' :: behind) :
    scanQuotation rest = ⟨rest.length + 1, .error (.problem .unterminatedString)⟩ := by
  cases found : quotedBody? rest with
  | none => simp only [scanQuotation, found]
  | some body =>
    obtain ⟨quoted, behind, split⟩ := quoted_of_quotedBody? found
    exact absurd split (open' _ _ _ quoted)

theorem length_of_spelled (spelled : spelled? text = some kind) :
    startsWith startsName text = true ∨ text.length = 1 ∨ text.length = 2 := by
  unfold spelled? at spelled
  split at spelled <;> first | decide | cases spelled

theorem startsWith_of_isPrefix {isMember : CodePoint → Bool} (leads : front <+: text)
    (start : startsWith isMember front = true) : startsWith isMember text = true := by
  obtain ⟨rest, rfl⟩ := leads
  cases front with
  | nil => cases start
  | cons => exact start

/-- Where no name begins, a fixed spelling is the first character or the first two. -/
theorem spelling_cases (unnamed : startsWith startsName text = false) (spelling : IsSpelling front)
    (leads : front <+: text) : front = text.take 1 ∨ front = text.take 2 := by
  obtain ⟨kind, spelled⟩ := spelling
  have whole := List.prefix_iff_eq_take.mp leads
  rcases length_of_spelled spelled with start | one | two
  · rw [startsWith_of_isPrefix leads start] at unnamed
    cases unnamed
  · left
    rwa [one] at whole
  · right
    rwa [two] at whole

theorem longest_symbol (unnamed : startsWith startsName text = false)
    (found : symbol? text = some (front, kind)) : Longest IsSpelling text front where
  formed := ⟨kind, spelled?_of_symbol? found⟩
  leads := isPrefix_of_symbol? found
  longest := by
    intro other spelling leads
    have taken := spelling_cases unnamed spelling leads
    rcases (symbol?_cases found).2 with rfl | ⟨rfl, missing⟩
    · rcases taken with rfl | rfl
      · rw [List.length_take, List.length_take]
        omega
      · exact Nat.le_refl _
    · rcases taken with rfl | rfl
      · exact Nat.le_refl _
      · obtain ⟨_, spelled⟩ := spelling
        rw [missing] at spelled
        cases spelled

theorem symbol?_eq_none (unnamed : startsWith startsName text = false) (missing : symbol? text = none)
    (spelling : IsSpelling front) : ¬ front <+: text := by
  intro leads
  simp only [symbol?, Option.orElse_eq_orElse, Option.orElse_eq_or, Option.or_eq_none_iff,
    Option.map_eq_none_iff] at missing
  obtain ⟨kind, spelled⟩ := spelling
  rcases spelling_cases unnamed ⟨kind, spelled⟩ leads with rfl | rfl
  · rw [missing.2] at spelled
    cases spelled
  · rw [missing.1] at spelled
    cases spelled

/-- What a scanner takes is a lexeme of its form. -/
theorem lexical_of_opens {opening : Opening} (opens : Opens (c :: rest) opening) :
    ∃ front, front <+: c :: rest ∧ (opening.scan c rest).length = front.length ∧
      Lexical (c :: rest) front (opening.scan c rest).found := by
  cases opening with
  | name =>
    have longest := longest_nameChars (startsName_of_opens opens)
    exact ⟨_, longest.leads, rfl, .name opens longest (classified_iff.mpr rfl)⟩
  | reference =>
    have longest := longest_nameChars (startsName_of_reference opens)
    refine ⟨c :: nameChars rest, ?_, rfl, .reference opens rfl longest⟩
    exact List.cons_prefix_cons.mpr ⟨rfl, longest.leads⟩
  | number =>
    have start := isDigit_of_opens opens
    have longest := longest_numberParts start
    obtain ⟨behind, split⟩ := longest.leads
    have unit := longest_unitChars behind
    rw [Opening.scan, scanNumber_eq split.symm]
    exact ⟨_, unit.extends split.symm, rfl, .number opens longest split.symm unit (denotes_numberParts start)⟩
  | quotation =>
    obtain ⟨rfl⟩ : c = scalar '\x22' := by cases opens; rfl
    cases found : quotedBody? rest with
    | some body =>
      obtain ⟨quoted, behind, rfl⟩ := quoted_of_quotedBody? found
      rw [Opening.scan, scanQuotation_quoted quoted]
      refine ⟨_, ?_, ?_, .quotation rfl quoted⟩
      · simp
      · simp
    | none =>
      have open' : ∀ body content behind, Quoted body content → rest ≠ body ++ scalar '\x22' :: behind := by
        rintro body content behind quoted rfl
        rw [quoted.quotedBody?_eq behind] at found
        cases found
      rw [Opening.scan, scanQuotation_open open']
      exact ⟨_, List.prefix_rfl, rfl, .unterminated rfl open'⟩
  | color =>
    obtain ⟨rfl⟩ : c = scalar '#' := by cases opens; rfl
    have longest := longest_takeWhile isAlphanumeric rest
    refine ⟨scalar '#' :: colorDigits rest, List.cons_prefix_cons.mpr ⟨rfl, longest.leads⟩, rfl, ?_⟩
    simp only [Opening.scan, scanColor]
    cases found : channels? (colorDigits rest) with
    | some channels => exact .color rfl longest (channels?_eq_some_iff.mp found)
    | none =>
      refine .discolored rfl longest fun channels color => ?_
      rw [channels?_eq_some_iff.mpr color] at found
      cases found

theorem unnamed_of_unopened (unopened : ∀ opening, ¬ Opens (c :: rest) opening) :
    startsWith startsName (c :: rest) = false := by
  rw [← Bool.not_eq_true]
  exact fun start => unopened _ (.name start)

theorem lexical_scan (c : CodePoint) (rest : List CodePoint) :
    ∃ front, front <+: c :: rest ∧ (scan c rest).length = front.length ∧
      Lexical (c :: rest) front (scan c rest).found := by
  by_cases opened : ∃ opening, Opens (c :: rest) opening
  · obtain ⟨opening, opens⟩ := opened
    rw [scan_of_opens opens]
    exact lexical_of_opens opens
  · have unopened : ∀ opening, ¬ Opens (c :: rest) opening :=
      fun opening opens => opened ⟨opening, opens⟩
    have unnamed := unnamed_of_unopened unopened
    rw [scan_of_unopened unopened, scanSymbol]
    cases found : symbol? (c :: rest) with
    | some spelling =>
      have longest := longest_symbol unnamed found
      exact ⟨_, longest.leads, rfl, .symbol unopened longest (spelled?_of_symbol? found)⟩
    | none =>
      refine ⟨[], List.nil_prefix, rfl, .unexpected unopened rfl ?_⟩
      exact fun front spelling => symbol?_eq_none unnamed found spelling

theorem scan_of_lexical (lexical : Lexical (c :: rest) front found) :
    scan c rest = ⟨front.length, found⟩ ∧ front <+: c :: rest := by
  cases lexical with
  | name opens longest word =>
    obtain rfl := longest.unique (longest_nameChars (startsName_of_opens opens))
    rw [scan_of_opens opens, ← classified_iff.mp word]
    exact ⟨rfl, longest.leads⟩
  | reference opens split longest =>
    obtain ⟨rfl, rfl⟩ := List.cons.inj split
    obtain rfl := longest.unique (longest_nameChars (startsName_of_reference opens))
    rw [scan_of_opens opens]
    exact ⟨rfl, List.cons_prefix_cons.mpr ⟨rfl, longest.leads⟩⟩
  | number opens longest split unit denotes =>
    have start := isDigit_of_opens opens
    obtain rfl := longest.unique (longest_numberParts start)
    obtain rfl := unit.unique (longest_unitChars _)
    obtain rfl := denotes.unique (denotes_numberParts start)
    rw [scan_of_opens opens, Opening.scan, scanNumber_eq split]
    exact ⟨rfl, unit.extends split⟩
  | quotation split quoted =>
    obtain ⟨rfl, rfl⟩ := List.cons.inj split
    rw [scan_quotation, scanQuotation_quoted quoted]
    simp
  | unterminated split open' =>
    obtain ⟨rfl, rfl⟩ := List.cons.inj split
    rw [scan_quotation, scanQuotation_open open']
    exact ⟨rfl, List.prefix_rfl⟩
  | color split longest color =>
    obtain ⟨rfl, rfl⟩ := List.cons.inj split
    obtain rfl := longest.unique (longest_takeWhile isAlphanumeric rest)
    rw [scan_color, scanColor, colorDigits, channels?_eq_some_iff.mpr color]
    exact ⟨rfl, List.cons_prefix_cons.mpr ⟨rfl, longest.leads⟩⟩
  | discolored split longest none =>
    obtain ⟨rfl, rfl⟩ := List.cons.inj split
    obtain rfl := longest.unique (longest_takeWhile isAlphanumeric rest)
    refine ⟨?_, List.cons_prefix_cons.mpr ⟨rfl, longest.leads⟩⟩
    rw [scan_color, scanColor]
    cases read : channels? (colorDigits rest) with
    | some channels => exact absurd (channels?_eq_some_iff.mp read) (none channels)
    | none => rfl
  | symbol unopened longest spelled =>
    have unnamed := unnamed_of_unopened unopened
    rw [scan_of_unopened unopened, scanSymbol]
    refine ⟨?_, longest.leads⟩
    cases found : symbol? (c :: rest) with
    | some spelling =>
      obtain rfl := longest.unique (longest_symbol unnamed found)
      obtain rfl := Option.some.inj (spelled.symm.trans (spelled?_of_symbol? found))
      rfl
    | none => exact absurd longest.leads (symbol?_eq_none unnamed found longest.formed)
  | unexpected unopened split none =>
    obtain ⟨rfl, rfl⟩ := List.cons.inj split
    rw [scan_of_unopened unopened, scanSymbol]
    refine ⟨?_, List.nil_prefix⟩
    cases found : symbol? (c :: rest) with
    | some spelling =>
      have longest := longest_symbol (unnamed_of_unopened unopened) found
      exact absurd longest.leads (none _ longest.formed)
    | none => rfl

theorem Lexical.ne_nil (lexical : Lexical text front found) : text ≠ [] := by
  rintro rfl
  cases lexical with
  | name opens | reference opens | number opens => cases opens
  | quotation split | unterminated split | color split | discolored split => cases split
  | symbol _ longest spelled =>
    obtain rfl := List.prefix_nil.mp longest.leads
    cases spelled
  | unexpected _ split => cases split

end Lexeme

namespace Cursor

open Lexeme

/-- What reading a token comes to. All blanks in front are skipped, and the lexeme behind them is taken,
at the place where it begins. -/
inductive Takes (cursor : Cursor) : EStateM.Result Fault Cursor (Option Token) → Prop where
  | finish (blank : Run isSpace cursor.ahead) :
      Takes cursor (.ok none (cursor.skip cursor.ahead.length))
  | token {blanks text front : List CodePoint} {lexeme : Lexeme}
      (space : Longest (Run isSpace) cursor.ahead blanks) (split : cursor.ahead = blanks ++ text)
      (lexical : Lexical text front (.ok lexeme)) :
      Takes cursor (.ok (some (lexeme.tokenAt (cursor.position.afterAll blanks)))
        (cursor.skip (blanks ++ front).length))
  | flaw {blanks text front : List CodePoint} {flaw : Flaw}
      (space : Longest (Run isSpace) cursor.ahead blanks) (split : cursor.ahead = blanks ++ text)
      (lexical : Lexical text front (.error flaw)) :
      Takes cursor (.error (flaw.faultAt (cursor.position.afterAll blanks))
        (cursor.skip (blanks ++ front).length))

variable {cursor : Cursor} {blanks text : List CodePoint}

theorem skip_skip (cursor : Cursor) (first second : Nat) :
    (cursor.skip first).skip second = cursor.skip (first + second) := by
  simp only [skip, List.take_add, List.drop_drop, List.reverse_append, List.append_assoc,
    Position.afterAll_append]

theorem skipSpace_eq (space : Longest (Run isSpace) cursor.ahead blanks)
    (split : cursor.ahead = blanks ++ text) :
    cursor.skipSpace = cursor.skip blanks.length ∧ cursor.skipSpace.ahead = text ∧
      cursor.skipSpace.position = cursor.position.afterAll blanks := by
  have skipped : cursor.skipSpace = cursor.skip blanks.length := by
    rw [skipSpace, space.unique (longest_takeWhile isSpace cursor.ahead)]
  refine ⟨skipped, ?_, ?_⟩
  · simp [skipped, skip, split]
  · simp [skipped, skip, split]

theorem nextToken_of_blank (blank : Run isSpace cursor.ahead) :
    cursor.nextToken = .ok none (cursor.skip cursor.ahead.length) := by
  have space : Longest (Run isSpace) cursor.ahead cursor.ahead :=
    ⟨blank, List.prefix_rfl, fun _ _ leads => leads.length_le⟩
  obtain ⟨skipped, ahead, -⟩ := skipSpace_eq space (List.append_nil _).symm
  unfold nextToken
  simp only [ahead]
  rw [skipped]

theorem nextToken_of_scan {c : CodePoint} {rest : List CodePoint} {scanned : Scan}
    (space : Longest (Run isSpace) cursor.ahead blanks) (split : cursor.ahead = blanks ++ c :: rest)
    (took : scan c rest = scanned) :
    cursor.nextToken = match scanned.found with
      | .ok lexeme => .ok (some (lexeme.tokenAt (cursor.position.afterAll blanks)))
          (cursor.skip (blanks.length + scanned.length))
      | .error flaw => .error (flaw.faultAt (cursor.position.afterAll blanks))
          (cursor.skip (blanks.length + scanned.length)) := by
  obtain ⟨skipped, ahead, place⟩ := skipSpace_eq space split
  have left : cursor.skipSpace.skip scanned.length =
      cursor.skip (blanks.length + scanned.length) := by
    rw [skipped, skip_skip]
  unfold nextToken
  cases found : scanned.found with
  | ok lexeme => simp only [ahead, place, took, found, left]
  | error flaw => simp only [ahead, place, took, found, left]

variable {result : EStateM.Result Fault Cursor (Option Token)}

theorem takes_of_nextToken_eq (read : cursor.nextToken = result) : cursor.Takes result := by
  subst read
  have space := longest_takeWhile isSpace cursor.ahead
  obtain ⟨text, split⟩ := space.leads
  cases text with
  | nil =>
    rw [List.append_nil] at split
    have blank : Run isSpace cursor.ahead := split ▸ space.formed
    rw [nextToken_of_blank blank]
    exact .finish blank
  | cons c rest =>
    obtain ⟨front, -, length, lexical⟩ := lexical_scan c rest
    rw [nextToken_of_scan space split.symm rfl, length, ← List.length_append]
    cases found : (scan c rest).found with
    | ok lexeme => exact .token space split.symm (found ▸ lexical)
    | error flaw => exact .flaw space split.symm (found ▸ lexical)

theorem nextToken_eq_of_takes (takes : cursor.Takes result) : cursor.nextToken = result := by
  cases takes with
  | finish blank => exact nextToken_of_blank blank
  | token space split lexical | flaw space split lexical =>
    obtain ⟨c, rest, rfl⟩ := List.exists_cons_of_ne_nil lexical.ne_nil
    rw [nextToken_of_scan space split (scan_of_lexical lexical).1, List.length_append]

/-- Reading a token does exactly what the lexical grammar tells. -/
theorem nextToken_eq_iff (cursor : Cursor) (result : EStateM.Result Fault Cursor (Option Token)) :
    cursor.nextToken = result ↔ cursor.Takes result := by
  constructor
  · intro read
    exact takes_of_nextToken_eq read
  · intro takes
    exact nextToken_eq_of_takes takes

end Cursor

end StyleExpr
