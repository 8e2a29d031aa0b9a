import StyleExpr.Proofs.Lexeme.Lexical

/-! The scanners of a lexer as loops that read one character after another. Each round looks at the next
two characters and decides whether to read on. Reading at the end of the text is a fault, and so is a loop
that needs more rounds than it is given. The scanners that measure what stands ahead and then skip it give
the same, so no loop ever reads past the end. -/

namespace StyleExpr.Stepwise

open Lexeme Text

abbrev Read (α : Type) := EStateM Fault Cursor α

def upcoming : Read (Option CodePoint × Option CodePoint) := fun cursor =>
  .ok (cursor.peek 0, cursor.peek 1) cursor

variable {α β σ : Type}

/-- A loop whose rounds are used up fails as if it had read past the end. -/
def overrun : Read α := fun cursor =>
  .error (.malformed .endOfText cursor.position) cursor

/-- Reads characters as long as they are wanted. That is told by what was read before and the character
behind; wanting one tells what was read then. -/
def readWhile (wanted : σ → CodePoint → Option CodePoint → Option σ) : Nat → σ → Read (List CodePoint)
  | 0, _ => overrun
  | rounds + 1, read => do
    match ← upcoming with
    | (none, _) => return []
    | (some c, following) =>
      match wanted read c following with
      | none => return []
      | some read =>
        let c ← Cursor.next
        let others ← readWhile wanted rounds read
        return c :: others

def classGoesOn (isMember : CodePoint → Bool) : Unit → CodePoint → Option CodePoint → Option Unit :=
  fun _ c _ => if isMember c then some () else none

/-- A hyphen goes on with a name only if the name has begun and does not end there. -/
def nameGoesOn (inside : Bool) (c : CodePoint) (following : Option CodePoint) : Option Bool :=
  if c = scalar '-' ∧ inside = true then
    if following.any isWord then some true else none
  else if isWord c then some true
  else none

/-- A point goes on with a number only if it is the first one and a digit follows. -/
def numeralGoesOn (pointed : Bool) (c : CodePoint) (following : Option CodePoint) : Option Bool :=
  if isDigit c then some pointed
  else if c = scalar '.' ∧ pointed = false ∧ following.any isDigit then some true
  else none

def skipSpace (rounds : Nat) : Read Unit := do
  let _ ← readWhile (classGoesOn isSpace) rounds ()

def readName (rounds : Nat) : Read Text :=
  Text.ofList <$> readWhile nameGoesOn rounds false

def advance : Nat → Read Unit
  | 0 => return
  | count + 1 => do
    let _ ← Cursor.next
    advance count

/-- Looks two characters ahead for the longest fixed spelling, and then reads it. -/
def readSymbol : Read (Option Token) := do
  let start := (← get).position
  let (first, second) ← upcoming
  match symbol? (first.toList ++ second.toList) with
  | none => return none
  | some (front, kind) =>
    advance front.length
    return some ⟨kind, .text (Text.ofList front), start, none⟩

def readUnit (rounds : Nat) : Read (List CodePoint) := do
  match ← upcoming with
  | (none, _) => return []
  | (some c, _) =>
    if c = scalar '%' then
      let sign ← Cursor.next
      return [sign]
    else if isLetter c then readWhile (classGoesOn isLetter) rounds ()
    else return []

def readNumber (rounds : Nat) (start : Position) : Read Token := do
  let digits ← readWhile numeralGoesOn rounds false
  let unit ← readUnit rounds
  let parts : NumberParts := ⟨digits.takeWhile isDigit, digits.dropWhile isDigit, unit⟩
  match parts.value? with
  | .ok value => return ⟨.number, value, start, parts.unit?⟩
  | .error fault => throw (.numeral fault)

/-- The content of a text behind its opening quote, if there is a closing one. A backslash is dropped, and
the character behind it read as it is. -/
def readContent : Nat → Read (Option (List CodePoint))
  | 0 => overrun
  | rounds + 1 => do
    match ← upcoming with
    | (none, _) => return none
    | (some _, _) =>
      let c ← Cursor.next
      if c = scalar '\x22' then return some []
      else if c = scalar '\\' then
        match ← upcoming with
        | (none, _) => readContent rounds
        | (some _, _) =>
          let escaped ← Cursor.next
          let content ← readContent rounds
          return content.map (escaped :: ·)
      else
        let content ← readContent rounds
        return content.map (c :: ·)

def readString (rounds : Nat) (start : Position) : Read Token := do
  let _ ← Cursor.next
  match ← readContent rounds with
  | some content => return ⟨.string, .text (Text.ofList content), start, none⟩
  | none => throw (.malformed .unterminatedString start)

def readColor (rounds : Nat) (start : Position) : Read Token := do
  let _ ← Cursor.next
  let digits ← readWhile (classGoesOn isAlphanumeric) rounds ()
  match channels? digits with
  | some channels => return ⟨.color, .tuple channels, start, none⟩
  | none => throw (.malformed (.invalidColor (Text.ofList digits)) start)

def readReference (rounds : Nat) (start : Position) : Read Token := do
  let _ ← Cursor.next
  let name ← readName rounds
  return ⟨.reference, .text name, start, none⟩

def readWord (rounds : Nat) (start : Position) : Read Token := do
  let name ← readName rounds
  return (Lexeme.ofName name.toList).tokenAt start

/-- Reads the token that begins with a character and the one behind it. -/
def readToken (rounds : Nat) (start : Position) (c : CodePoint) (following : Option CodePoint) : Read Token :=
  if startsName c then readWord rounds start
  else if (c = scalar '!' || c = scalar '$') && following.any startsName then readReference rounds start
  else if isDigit c || (c = scalar '.' && following.any isDigit) then readNumber rounds start
  else if c = scalar '\x22' then readString rounds start
  else if c = scalar '#' then readColor rounds start
  else do
    match ← readSymbol with
    | some token => return token
    | none => throw (.malformed (.unexpectedCharacter c) start)

def nextToken (rounds : Nat) : Read (Option Token) := do
  skipSpace rounds
  let start := (← get).position
  match ← upcoming with
  | (none, _) => return none
  | (some c, following) => some <$> readToken rounds start c following

section Runs

variable {cursor after : Cursor} {rounds : Nat} {c : CodePoint} {rest : List CodePoint}

theorem bind_of_ok {action : Read α} {next : α → Read β} {result : α}
    (ran : action cursor = .ok result after) : (action >>= next) cursor = next result after := by
  simp only [bind, EStateM.bind, ran]

theorem upcoming_eq (cursor : Cursor) :
    upcoming cursor = .ok (cursor.ahead.head?, cursor.ahead.tail.head?) cursor := by
  obtain ⟨behind, ahead, position⟩ := cursor
  rcases ahead with _ | ⟨c, _ | ⟨d, rest⟩⟩ <;> rfl

theorem next_eq (ahead : cursor.ahead = c :: rest) : Cursor.next cursor = .ok c (cursor.skip 1) := by
  simp only [Cursor.next, ahead]

theorem ahead_skip (cursor : Cursor) (count : Nat) :
    (cursor.skip count).ahead = cursor.ahead.drop count := rfl

theorem ahead_skip_one (ahead : cursor.ahead = c :: rest) : (cursor.skip 1).ahead = rest := by
  rw [ahead_skip, ahead, List.drop_one, List.tail_cons]

def front (wanted : σ → CodePoint → Option CodePoint → Option σ) : σ → List CodePoint → List CodePoint
  | _, [] => []
  | read, c :: rest =>
    match wanted read c rest.head? with
    | none => []
    | some read => c :: front wanted read rest

theorem readWhile_eq (wanted : σ → CodePoint → Option CodePoint → Option σ)
    (enough : cursor.ahead.length < rounds) (read : σ) :
    readWhile wanted rounds read cursor =
      .ok (front wanted read cursor.ahead) (cursor.skip (front wanted read cursor.ahead).length) := by
  induction rounds generalizing cursor read with
  | zero => omega
  | succ rounds ih =>
    rw [readWhile, bind_of_ok (upcoming_eq cursor)]
    cases ahead : cursor.ahead with
    | nil =>
      rw [front, List.length_nil, Cursor.skip_zero]
      rfl
    | cons c rest =>
      have shorter := ahead_skip_one ahead
      rw [ahead, List.length_cons] at enough
      rw [front]
      cases next : wanted read c rest.head? with
      | none =>
        simp only [List.head?_cons, List.tail_cons, next, List.length_nil, Cursor.skip_zero]
        rfl
      | some read' =>
        -- a round takes a character, so those left are enough for what is left of the text
        have fewer : (cursor.skip 1).ahead.length < rounds := by
          rw [shorter]
          omega
        have others := ih fewer read'
        rw [shorter, Cursor.skip_skip] at others
        simp only [List.head?_cons, List.tail_cons, next]
        rw [bind_of_ok (next_eq ahead), bind_of_ok others, List.length_cons, Nat.add_comm 1]
        rfl

theorem front_class (isMember : CodePoint → Bool) (text : List CodePoint) :
    front (classGoesOn isMember) () text = text.takeWhile isMember := by
  induction text with
  | nil => rfl
  | cons c rest ih =>
    rw [front, classGoesOn, List.takeWhile_cons]
    cases isMember c with
    | true => exact congrArg (c :: ·) ih
    | false => rfl

theorem startsWith_eq (isMember : CodePoint → Bool) (text : List CodePoint) :
    startsWith isMember text = text.head?.any isMember := by
  cases text <;> rfl

theorem front_name (inside : Bool) (text : List CodePoint) :
    front nameGoesOn inside text = nameFront inside text := by
  induction text generalizing inside with
  | nil => rfl
  | cons c rest ih =>
    rw [front, nameFront, nameGoesOn, startsWith_eq]
    by_cases hyphen : c = scalar '-'
    · have other : isWord (scalar '-') = false := by decide
      cases inside <;> cases rest.head?.any isWord <;> simp [hyphen, other, ih]
    · cases isWord c <;> simp [hyphen, ih]

theorem front_numeral_pointed (text : List CodePoint) :
    front numeralGoesOn true text = text.takeWhile isDigit := by
  induction text with
  | nil => rfl
  | cons c rest ih =>
    rw [front, numeralGoesOn, List.takeWhile_cons]
    cases isDigit c <;> simp [ih]

theorem front_numeral (text : List CodePoint) :
    front numeralGoesOn false text = (numberParts text).whole ++ (numberParts text).fraction := by
  induction text with
  | nil => rfl
  | cons c rest ih =>
    rw [front, numeralGoesOn, fraction_eq]
    cases digit : isDigit c with
    | true =>
      have whole : (numberParts (c :: rest)).whole = c :: (numberParts rest).whole := by
        simp [numberParts, digit]
      rw [whole, List.length_cons, List.drop_succ_cons, ← fraction_eq]
      simp [ih]
    | false =>
      have whole : (numberParts (c :: rest)).whole = [] := by simp [numberParts, digit]
      rw [whole, List.length_nil, List.drop_zero, List.nil_append]
      by_cases point : c = scalar '.'
      · rw [point, fractionChars]
        cases rest with
        | nil => rfl
        | cons d rest => cases behind : isDigit d <;> simp [behind, front_numeral_pointed]
      · rw [fractionChars.eq_2 _ fun _ same => point (List.cons.inj same).1]
        simp [point]

theorem skipSpace_eq (enough : cursor.ahead.length < rounds) :
    skipSpace rounds cursor = .ok () cursor.skipSpace := by
  rw [skipSpace, bind_of_ok (readWhile_eq _ enough ()), front_class]
  rfl

theorem readName_eq (enough : cursor.ahead.length < rounds) :
    readName rounds cursor = .ok cursor.readName.1 cursor.readName.2 := by
  simp only [readName, Functor.map, EStateM.map, readWhile_eq nameGoesOn enough false, front_name]
  rfl

theorem advance_eq {count : Nat} (inside : count ≤ cursor.ahead.length) :
    advance count cursor = .ok () (cursor.skip count) := by
  induction count generalizing cursor with
  | zero =>
    rw [Cursor.skip_zero]
    rfl
  | succ count ih =>
    cases ahead : cursor.ahead with
    | nil => simp [ahead] at inside
    | cons c rest =>
      have shorter := ahead_skip_one ahead
      rw [ahead] at inside
      have others := ih (shorter.symm ▸ Nat.le_of_succ_le_succ inside)
      rw [advance, bind_of_ok (next_eq ahead), others, Cursor.skip_skip, Nat.add_comm 1]

theorem readSymbol_eq (cursor : Cursor) :
    readSymbol cursor = .ok cursor.readSymbol.1 cursor.readSymbol.2 := by
  have shown : symbol? (cursor.ahead.head?.toList ++ cursor.ahead.tail.head?.toList) =
      symbol? cursor.ahead := by
    rcases cursor.ahead with _ | ⟨c, _ | ⟨d, rest⟩⟩ <;> rfl
  have place : (get : Read Cursor) cursor = .ok cursor cursor := rfl
  rw [readSymbol, bind_of_ok place, bind_of_ok (upcoming_eq cursor), Cursor.readSymbol]
  simp only [shown]
  cases found : symbol? cursor.ahead with
  | none => rfl
  | some spelling =>
    obtain ⟨spelling, kind⟩ := spelling
    simp only
    rw [bind_of_ok (advance_eq (isPrefix_of_symbol? found).length_le)]
    rfl

theorem readUnit_eq (enough : cursor.ahead.length < rounds) :
    readUnit rounds cursor =
      .ok (unitChars cursor.ahead) (cursor.skip (unitChars cursor.ahead).length) := by
  have run := readWhile_eq (classGoesOn isLetter) enough ()
  rw [front_class] at run
  rw [readUnit, bind_of_ok (upcoming_eq cursor)]
  cases ahead : cursor.ahead with
  | nil =>
    simp only [List.head?_nil, unitChars, List.takeWhile_nil, List.length_nil, Cursor.skip_zero]
    rfl
  | cons c rest =>
    simp only [List.head?_cons]
    split
    · next percent =>
      rw [bind_of_ok (next_eq ahead), percent]
      rfl
    · next other =>
      rw [unitChars.eq_2 _ fun _ same => other (List.cons.inj same).1]
      split
      · rw [run, ahead]
      · next outside =>
        rw [List.takeWhile_cons, if_neg outside, List.length_nil, Cursor.skip_zero]
        rfl

/-- What reading the lexeme that is found at the front of the text ahead gives. -/
def given (scan : Scan) (cursor : Cursor) : EStateM.Result Fault Cursor Token :=
  match scan.found with
  | .ok lexeme => .ok (lexeme.tokenAt cursor.position) (cursor.skip scan.length)
  | .error flaw => .error (flaw.faultAt cursor.position) (cursor.skip scan.length)

theorem readWord_eq (enough : cursor.ahead.length < rounds) :
    readWord rounds cursor.position cursor = given (scanName cursor.ahead) cursor := by
  rw [readWord, bind_of_ok (readName_eq enough), Cursor.readName, Text.toList_ofList]
  rfl

theorem readReference_eq (ahead : cursor.ahead = c :: rest) (enough : rest.length < rounds) :
    readReference rounds cursor.position cursor = given (scanReference rest) cursor := by
  have behind := ahead_skip_one ahead
  rw [← behind] at enough
  rw [readReference, bind_of_ok (next_eq ahead), bind_of_ok (readName_eq enough), Cursor.readName,
    behind, Cursor.skip_skip, Nat.add_comm 1]
  rfl

/-- The point tells the parts of a numeral apart. -/
theorem parts_of_numeral (text : List CodePoint) :
    (⟨((numberParts text).whole ++ (numberParts text).fraction).takeWhile isDigit,
      ((numberParts text).whole ++ (numberParts text).fraction).dropWhile isDigit,
      unitChars (text.drop ((numberParts text).whole.length + (numberParts text).fraction.length))⟩ :
        NumberParts) = numberParts text := by
  have each : Run isDigit (numberParts text).whole := (longest_takeWhile isDigit text).formed
  have stop : ∀ c ∈ (numberParts text).fraction.head?, isDigit c = false := by
    rw [fraction_eq]
    rcases fractionChars_cases (text.drop (numberParts text).whole.length) with
      none | ⟨part, rest, taken, -⟩
    · simp [none]
    · rw [taken]
      rintro c ⟨⟩
      exact isDigit_point
  have digits := takeWhile_run each stop
  have others := List.takeWhile_append_dropWhile (p := isDigit)
    (l := (numberParts text).whole ++ (numberParts text).fraction)
  rw [digits] at others
  rw [digits, List.append_cancel_left others]
  rfl

theorem readNumber_eq (enough : cursor.ahead.length < rounds) :
    readNumber rounds cursor.position cursor = given (scanNumber cursor.ahead) cursor := by
  have numeral := readWhile_eq numeralGoesOn enough false
  rw [front_numeral, List.length_append] at numeral
  have fewer (count : Nat) : (cursor.skip count).ahead.length < rounds := by
    rw [ahead_skip, List.length_drop]
    omega
  rw [readNumber, bind_of_ok numeral, bind_of_ok (readUnit_eq (fewer _)), ahead_skip, Cursor.skip_skip,
    parts_of_numeral, scanNumber]
  cases value : (numberParts cursor.ahead).value? with
  | ok number =>
    simp only
    rfl
  | error fault =>
    simp only
    rfl

/-- The content behind an opening quote, if there is a closing one, and how many characters tell it. -/
def contentAhead (text : List CodePoint) : Option (List CodePoint) × Nat :=
  match quotedBody? text with
  | some body => (some (unescaped body), body.length + 1)
  | none => (none, text.length)

theorem contentAhead_escape (c : CodePoint) (rest : List CodePoint) :
    contentAhead (scalar '\\' :: c :: rest) =
      ((contentAhead rest).1.map (c :: ·), (contentAhead rest).2 + 2) := by
  rw [contentAhead, contentAhead, quotedBody?]
  cases quotedBody? rest <;> simp [unescaped]

theorem contentAhead_cons (quote : c ≠ scalar '\x22') (slash : c ≠ scalar '\\') (rest : List CodePoint) :
    contentAhead (c :: rest) = ((contentAhead rest).1.map (c :: ·), (contentAhead rest).2 + 1) := by
  rw [contentAhead, contentAhead, quotedBody?.eq_5 _ _ quote (fun same _ => slash same)
    fun _ _ same _ => slash same]
  cases quotedBody? rest with
  | none => rfl
  | some body =>
    simp only [Option.map_some, List.length_cons]
    rw [unescaped.eq_4 _ _ (fun same _ => slash same) fun _ _ same _ => slash same]

theorem readContent_eq (enough : cursor.ahead.length < rounds) :
    readContent rounds cursor =
      .ok (contentAhead cursor.ahead).1 (cursor.skip (contentAhead cursor.ahead).2) := by
  induction rounds generalizing cursor with
  | zero => omega
  | succ rounds ih =>
    rw [readContent, bind_of_ok (upcoming_eq cursor)]
    cases ahead : cursor.ahead with
    | nil =>
      show EStateM.Result.ok none cursor = .ok none (cursor.skip 0)
      rw [Cursor.skip_zero]
    | cons c rest =>
      have behind := ahead_skip_one ahead
      rw [ahead, List.length_cons] at enough
      have others := ih (behind.symm ▸ Nat.lt_of_succ_lt_succ enough)
      rw [behind, Cursor.skip_skip] at others
      simp only [List.head?_cons]
      rw [bind_of_ok (next_eq ahead)]
      by_cases quote : c = scalar '\x22'
      · rw [if_pos quote, quote]
        rfl
      rw [if_neg quote]
      by_cases slash : c = scalar '\\'
      · rw [if_pos slash, bind_of_ok (upcoming_eq _), behind, slash]
        cases rest with
        -- behind a backslash at the end of the text there is no character to read
        | nil => exact others
        | cons d rest =>
          have behind' := ahead_skip_one behind
          have fewer : ((cursor.skip 1).skip 1).ahead.length < rounds := by
            rw [behind']
            rw [List.length_cons] at enough
            omega
          have others := ih fewer
          rw [behind', Cursor.skip_skip, Cursor.skip_skip] at others
          simp only [List.head?_cons]
          rw [bind_of_ok (next_eq behind), Cursor.skip_skip, bind_of_ok others, contentAhead_escape,
            Nat.add_comm (1 + 1)]
          rfl
      · rw [if_neg slash, bind_of_ok others, contentAhead_cons quote slash, Nat.add_comm 1]
        rfl

theorem readString_eq (ahead : cursor.ahead = c :: rest) (enough : rest.length < rounds) :
    readString rounds cursor.position cursor = given (scanQuotation rest) cursor := by
  have behind := ahead_skip_one ahead
  rw [← behind] at enough
  rw [readString, bind_of_ok (next_eq ahead), bind_of_ok (readContent_eq enough), behind,
    Cursor.skip_skip, scanQuotation, contentAhead]
  cases quotedBody? rest with
  | some body =>
    simp only
    rw [Nat.add_comm 1]
    rfl
  | none =>
    simp only
    rw [Nat.add_comm 1]
    rfl

theorem readColor_eq (ahead : cursor.ahead = c :: rest) (enough : rest.length < rounds) :
    readColor rounds cursor.position cursor = given (scanColor rest) cursor := by
  have behind := ahead_skip_one ahead
  rw [← behind] at enough
  rw [readColor, bind_of_ok (next_eq ahead), bind_of_ok (readWhile_eq _ enough ()), front_class, behind,
    Cursor.skip_skip, Nat.add_comm 1, scanColor]
  unfold colorDigits
  cases channels? (rest.takeWhile isAlphanumeric) with
  | some channels => rfl
  | none => rfl

theorem readToken_eq (ahead : cursor.ahead = c :: rest) (enough : cursor.ahead.length < rounds) :
    readToken rounds cursor.position c rest.head? cursor = given (scan c rest) cursor := by
  have fewer : rest.length < rounds := by
    rw [ahead, List.length_cons] at enough
    omega
  unfold readToken scan
  rw [startsWith_eq, startsWith_eq, ← ahead]
  split
  · exact readWord_eq enough
  split
  · exact readReference_eq ahead fewer
  split
  · exact readNumber_eq enough
  split
  · exact readString_eq ahead fewer
  split
  · exact readColor_eq ahead fewer
  · rw [bind_of_ok (readSymbol_eq cursor), Cursor.readSymbol, scanSymbol]
    cases symbol? cursor.ahead with
    | none =>
      show EStateM.Result.error _ cursor = .error _ (cursor.skip 0)
      rw [Cursor.skip_zero]
      rfl
    | some spelling => rfl

theorem nextToken_eq (enough : cursor.ahead.length < rounds) :
    nextToken rounds cursor = cursor.nextToken := by
  have fewer := Nat.lt_of_le_of_lt cursor.length_skipSpace enough
  have place : (get : Read Cursor) cursor.skipSpace = .ok cursor.skipSpace cursor.skipSpace := rfl
  rw [nextToken, bind_of_ok (skipSpace_eq enough), bind_of_ok place, bind_of_ok (upcoming_eq _),
    Cursor.nextToken]
  cases ahead : cursor.skipSpace.ahead with
  | nil =>
    simp only
    rfl
  | cons c rest =>
    have read := readToken_eq ahead fewer
    simp only [List.head?_cons, List.tail_cons, Functor.map, EStateM.map, read, given]
    cases (scan c rest).found with
    | ok lexeme => rfl
    | error flaw => rfl

end Runs

end StyleExpr.Stepwise
