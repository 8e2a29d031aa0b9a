import StyleExpr.Proofs.Breakoff

/-! What a run on a text comes to, decided by the reading or by the tokens alone. Only a place that is too
long to be written can get in the way, and only one that the run shows. -/

namespace StyleExpr

namespace Report

open Text (line lines)

/-- A run that shows some places comes to what is expected, unless one of them is too long. -/
def Settles (report : Report) (shown : List Position) (expected : Report) : Prop :=
  (AllWritable shown → report = expected) ∧
    (¬ AllWritable shown → report.status = .error .longNumber)

def said (request : Request) (warnings : List Text) : Text :=
  if request.showsWarnings then lines (warnings.map (request.warningLabel ++ ·)) else ""

variable {source : Text} {start : Position} {tokens : List Token} {expr : Expr}
variable {ending : Except Fault Position} {warnings : List Text} {lexer : Lexer} {format : Format}

theorem ofFault_settles (output warnings : Text) (problem : Problem) (place : Position) :
    (ofFault start.place output warnings (.malformed problem place)).Settles [place]
      ⟨.ok 1, output, warnings ++ line ("error: " ++ problem.describe place.place)⟩ := by
  rw [Settles, allWritable_singleton, ofFault, Place.shown_place]
  constructor
  · intro writable
    rw [if_pos writable]
  · intro long
    rw [if_neg long]

theorem ofExpr_settles {text : Text} {left : Option Token} (shows : format.Shows expr text)
    (peeked : TokenSource.peek lexer = .ok left lexer) (warnings : Text) :
    (ofExpr start.place format expr lexer warnings).Settles
      (format.places expr ++ left.toList.map Token.position)
      ⟨.ok 0, lines (text :: left.toList.map (leftoverNote start.place)), warnings⟩ := by
  have rendered : format.render start.place.shown expr = _ :=
    Format.render_of_shows shows
  by_cases tree : AllWritable (format.places expr)
  · rw [if_pos tree] at rendered
    simp only [ofExpr, rendered, peeked, Settles, allWritable_append, tree, true_and]
    cases left with
    | none => simp [AllWritable, lines, Text.join_cons]
    | some token =>
      simp only [Option.toList_some, List.map_cons, List.map_nil, allWritable_singleton,
        Place.shown_place]
      constructor
      · intro writable
        rw [if_pos writable]
        simp [lines, Text.join_cons]
      · intro long
        rw [if_neg long]
  · rw [if_neg tree] at rendered
    simp [ofExpr, rendered, Settles, allWritable_append, tree]

/-- Tokens are listed up to the first one with a place that is too long. -/
theorem takeWhile_of_writable (writable : AllWritable (tokens.map Token.position)) :
    (tokens.takeWhile fun token => (start.place.shown token.position).isWritable) = tokens := by
  have each : ∀ token ∈ tokens, (start.place.shown token.position).isWritable = true := by
    intro token member
    rw [Place.shown_place]
    exact writable _ (List.mem_map_of_mem member)
  have whole : (tokens ++ []).takeWhile _ = tokens := takeWhile_run each (by simp)
  rwa [List.append_nil] at whole

theorem takeWhile_of_long (long : ¬ AllWritable (tokens.map Token.position)) :
    (tokens.takeWhile fun token => (start.place.shown token.position).isWritable).length <
      tokens.length := by
  have leads : (tokens.takeWhile fun token => (start.place.shown token.position).isWritable) <+:
      tokens := List.takeWhile_prefix _
  apply Nat.lt_of_le_of_ne leads.length_le
  intro length
  apply long
  intro position member
  obtain ⟨token, listed, rfl⟩ := List.mem_map.mp member
  rw [← leads.eq_of_length length] at listed
  have writable := List.all_eq_true.mp List.all_takeWhile token listed
  rwa [Place.shown_place] at writable

theorem ofTokens_settles (feeds : Feeds lexer tokens ending) :
    let output := lines (tokens.map (tokenLine start.place))
    (ofTokens start.place lexer).Settles (tokens.map Token.position)
      (match fault? ending with
        | none => ⟨.ok 0, output, ""⟩
        | some fault => ofFault start.place output "" fault) := by
  intro output
  obtain ⟨after, collected, -⟩ := feeds.collect_eq
  simp only [Settles, ofTokens, collected]
  constructor
  · intro writable
    simp only [takeWhile_of_writable writable, Nat.lt_irrefl, ↓reduceIte]
    rfl
  · intro long
    simp only [takeWhile_of_long long, ↓reduceIte]

theorem Settles.fault {report : Report} {shown : List Position} {output : Text} {problem : Problem}
    {place : Position}
    (settles : report.Settles shown (ofFault start.place output "" (.malformed problem place))) :
    report.Settles (shown ++ [place])
      ⟨.ok 1, output, line ("error: " ++ problem.describe place.place)⟩ := by
  have last : (ofFault start.place output "" (.malformed problem place)).Settles [place] _ :=
    ofFault_settles output "" problem place
  obtain ⟨clear, long⟩ := last
  constructor
  · intro writable
    obtain ⟨first, last⟩ := allWritable_append.mp writable
    rw [settles.1 first, clear last, Text.empty_append]
  · intro unwritable
    by_cases first : AllWritable shown
    · rw [settles.1 first]
      exact long fun last => unwritable (allWritable_append.mpr ⟨first, last⟩)
    · exact settles.2 first

section Request

variable {request : Request} (input : request.input = .text source)
  (named : Format.ofName? request.format = some format) (begins : request.start = start.place)
include input named begins

/-- A run with a known format on a text is decided by what the text comes to. A tree is shown in each
format, with a note on the token behind it if there is one, and the run ends with status 0. What is
malformed is reported behind the warnings, and the run ends with status 1. Listing gives the tokens in
front of the first fault. Only a place that is shown and too long gets in the way. -/
theorem ofRequest_settles :
    (request.listsTokens = false →
      (∀ expr warnings lexer, Reading.ofText source start = (⟨.ok expr, warnings⟩, lexer) →
        ∃ text left, format.Shows expr text ∧ TokenSource.peek lexer = .ok left lexer ∧
          (ofRequest request).Settles (format.places expr ++ left.toList.map Token.position)
            ⟨.ok 0, lines (text :: left.toList.map (leftoverNote start.place)),
              said request warnings⟩) ∧
      ∀ problem place warnings lexer,
        Reading.ofText source start = (⟨.error (.malformed problem place), warnings⟩, lexer) →
          (ofRequest request).Settles [place]
            ⟨.ok 1, "", said request warnings ++ line ("error: " ++ problem.describe place.place)⟩) ∧
    (request.listsTokens = true →
      ∃ tokens ending, Feeds (Lexer.ofText source start) tokens ending ∧
        let output := lines (tokens.map (tokenLine start.place))
        match ending with
        | .ok _ => (ofRequest request).Settles (tokens.map Token.position) ⟨.ok 0, output, ""⟩
        | .error (.malformed problem place) =>
          (ofRequest request).Settles (tokens.map Token.position ++ [place])
            ⟨.ok 1, output, line ("error: " ++ problem.describe place.place)⟩
        | .error fault =>
          (ofRequest request).Settles (tokens.map Token.position)
            ⟨.error (.unreadable fault), output, ""⟩) := by
  rw [ofRequest_text input named begins, ofSource, begins]
  refine ⟨fun reads => ⟨?_, ?_⟩, ?_⟩
  · intro expr warnings lexer read
    have readable := Reading.wellFormed_of_ofText (congrArg (·.1.outcome) read)
    obtain ⟨text, shows⟩ := format.exists_shows readable
    obtain ⟨tokens, ending, feeds⟩ := exists_feeds (Lexer.ofText source start)
    have peeked := Reading.peek_of_ofSource feeds read
    have settles : (ofExpr start.place format expr lexer (said request warnings)).Settles _ _ :=
      ofExpr_settles shows peeked _
    rw [Reading.ofText] at read
    simp only [reads, Bool.false_eq_true, ↓reduceIte, read]
    exact ⟨text, _, shows, peeked, settles⟩
  · intro problem place warnings lexer read
    rw [Reading.ofText] at read
    simp only [reads, Bool.false_eq_true, ↓reduceIte, read]
    exact ofFault_settles "" (said request warnings) problem place
  · intro lists
    obtain ⟨tokens, ending, feeds⟩ := exists_feeds (Lexer.ofText source start)
    have settles : (ofTokens start.place (Lexer.ofText source start)).Settles _ _ :=
      ofTokens_settles feeds
    refine ⟨tokens, ending, feeds, ?_⟩
    simp only [lists, ↓reduceIte]
    cases ending with
    | ok place => exact settles
    | error fault =>
      cases fault with
      | malformed problem place => exact settles.fault
      | numeral cause => exact settles
      | uncountable => exact settles

end Request

/-- A number, and a parenthesis in the next line that closes nothing. -/
theorem read_in_front_of_stray (line : Int) :
    ∃ lexer, Reading.ofText "1\n)" ⟨line, 1⟩ =
        (⟨.ok (.literal .number (.int 1) none ⟨line, 1⟩), []⟩, lexer) ∧
      TokenSource.peek lexer =
        .ok (some ⟨.closeParen, .text ")", ⟨line + 1, 1⟩, none⟩) lexer := by
  let number : Token := ⟨.number, .int 1, ⟨line, 1⟩, none⟩
  let stray : Token := ⟨.closeParen, .text ")", ⟨line + 1, 1⟩, none⟩
  have lexed : tokenize "1\n)" ⟨line, 1⟩ = .ok [number, stray] := rfl
  have phrase : Phrase .literal false [number] (.literal .number (.int 1) none ⟨line, 1⟩) :=
    .literal rfl
  have stops : Level.expression.Stops [stray] :=
    Level.Stops.expression_iff.mpr (by simp [stray])
  have feeds := feeds_of_tokenize lexed
  obtain ⟨lexer, read, -⟩ := Reading.ofText_phrase feeds (phrase.loosen (by decide)) stops
  exact ⟨lexer, read, Reading.peek_of_ofSource feeds read⟩

/-- The parenthesis stands in the first line whose number is too long. -/
theorem ofRequest_settles_far_line :
    let start : Position := ⟨10 ^ integerDigitLimit - 1, 1⟩
    let request : Request := ⟨.text "1\n)", "repr", false, true, start.place, ""⟩
    let number : Expr := .literal .number (.int 1) none start
    (∃ lexer, Reading.ofText "1\n)" start = (⟨.ok number, []⟩, lexer)) ∧
      start.place.isWritable = true ∧ (ofRequest request).status = .error .longNumber := by
  intro start request number
  obtain ⟨lexer, read, peeked⟩ := read_in_front_of_stray (10 ^ integerDigitLimit - 1)
  have begins : request.start = start.place := rfl
  obtain ⟨trees, -⟩ := (ofRequest_settles rfl rfl begins).1 rfl
  obtain ⟨text, left, -, peeked', settles⟩ := trees number [] lexer read
  rw [peeked] at peeked'
  cases peeked'
  have power : (10 ^ integerDigitLimit : Int) = (10 ^ integerDigitLimit : Nat) :=
    (Int.natCast_pow 10 integerDigitLimit).symm
  have positive : 0 < 10 ^ integerDigitLimit := Nat.pow_pos (by decide)
  have near : Numeral.isWritable (10 ^ integerDigitLimit - 1) = true := by
    rw [power, Numeral.isWritable, decide_eq_true_eq]
    omega
  have far : Numeral.isWritable (10 ^ integerDigitLimit - 1 + 1) = false := by
    rw [power, Numeral.isWritable, decide_eq_false_iff_not]
    omega
  have one : Numeral.isWritable 1 = true := by decide +kernel
  refine ⟨⟨lexer, read⟩, ?_, ?_⟩
  · exact Bool.and_eq_true_iff.mpr ⟨near, one⟩
  · apply settles.2
    intro writable
    have last := Bool.and_eq_true_iff.mp (writable _ (List.mem_singleton_self _))
    exact absurd last.1 (Bool.eq_false_iff.mp far)

end Report

end StyleExpr
