import StyleExpr.Proofs.Grammar.Faults
import StyleExpr.Proofs.Grammar.Places
import StyleExpr.Proofs.Lexeme.Unreadable
import StyleExpr.Proofs.RoundTrip
import StyleExpr.Proofs.Shown
import StyleExpr.Proofs.Source.Transcript

/-! Why a run on a text may break off. Reading reports what is malformed, with one exception: a numeral
that is no number. A run ends with status 0 or 1 but for that, and for places that are too long to be
written. -/

namespace StyleExpr

open Lexeme

/-- The text comes to an unreadable numeral behind the tokens. -/
def Stuck (text : List CodePoint) (start : Position) (tokens : List Token) : Prop :=
  ∃ before digits rest, text = before ++ (digits ++ rest) ∧
    Tokenizes (digits ++ rest) start before tokens ∧ Longest IsNumeral (digits ++ rest) digits ∧
    Unreadable digits

/-- A fault of a text: something is malformed at a place in it, or there is an unreadable numeral. -/
inductive FaultIn (text : List CodePoint) (start : Position) (tokens : List Token) : Fault → Prop where
  | malformed {problem : Problem} {part : List CodePoint} (leads : part <+: text) :
      FaultIn text start tokens (.malformed problem (start.afterAll part))
  | numeral {cause : NumeralFault} (stuck : Stuck text start tokens) :
      FaultIn text start tokens (.numeral cause)

section Text

variable {text : List CodePoint} {start place : Position} {tokens : List Token} {token : Token}
variable {ending : Except Fault Position} {fault : Fault} {cause : NumeralFault} {rest front : List CodePoint}

theorem startsWith_numeral {digits : List CodePoint} (formed : IsNumeral digits) (rest : List CodePoint) :
    startsWith isSpace (digits ++ rest) = false := by
  obtain ⟨number, denotes⟩ := formed
  have opens := denotes.opens rest
  generalize digits ++ rest = text at opens
  cases opens with
  | digit digit => exact isSpace_of_isDigit digit
  | point => rfl

theorem Transcript.numeral_iff :
    (∃ cause, Transcript text start tokens (.error (.numeral cause))) ↔ Stuck text start tokens := by
  constructor
  · rintro ⟨cause, before, rest, rfl, tokenizes, leaves⟩
    generalize given : Except.error (Fault.numeral cause) = ending at leaves
    cases leaves with
    | finish => cases given
    | @flaw _ front _ flaw solid lexical =>
      cases flaw with
      | problem => cases given
      | numeral cause' =>
        obtain ⟨digits, longest, unreadable⟩ := Lexical.numeral_iff.mp ⟨front, cause', lexical⟩
        obtain ⟨behind, rfl⟩ := longest.leads
        exact ⟨before, digits, behind, rfl, tokenizes, longest, unreadable⟩
  · rintro ⟨before, digits, rest, rfl, tokenizes, longest, unreadable⟩
    obtain ⟨front, cause, lexical⟩ := Lexical.numeral_iff.mpr ⟨digits, longest, unreadable⟩
    have solid := startsWith_numeral longest.formed rest
    exact ⟨cause, before, _, rfl, tokenizes, .flaw solid lexical⟩

theorem Transcript.faultIn (transcript : Transcript text start tokens (.error fault)) :
    FaultIn text start tokens fault := by
  obtain ⟨before, rest, rfl, tokenizes, leaves⟩ := transcript
  generalize given : Except.error fault = ending at leaves
  cases leaves with
  | finish => cases given
  | @flaw _ _ _ flaw solid lexical =>
    cases given
    cases flaw with
    | problem => exact .malformed (List.prefix_append ..)
    | numeral cause =>
      have stuck := Transcript.numeral_iff.mp ⟨cause, before, rest, rfl, tokenizes, .flaw solid lexical⟩
      exact .numeral stuck

theorem Tokenizes.places (tokenizes : Tokenizes rest place front tokens) (member : token ∈ tokens) :
    ∃ part, part <+: front ∧ token.position = place.afterAll part := by
  induction tokenizes with
  | finish => cases member
  | @blank _ c _ _ _ _ ih =>
    obtain ⟨part, leads, same⟩ := ih member
    exact ⟨c :: part, List.cons_prefix_cons.mpr ⟨rfl, leads⟩, same⟩
  | @token place spelling _ _ _ _ _ ih =>
    rcases List.mem_cons.mp member with rfl | later
    · exact ⟨[], List.nil_prefix, rfl⟩
    · obtain ⟨part, leads, same⟩ := ih later
      refine ⟨spelling ++ part, (List.prefix_append_right_inj spelling).mpr leads, ?_⟩
      rw [same, Position.afterAll_append]

theorem Transcript.places (transcript : Transcript text start tokens ending) (member : token ∈ tokens) :
    ∃ part, part <+: text ∧ token.position = start.afterAll part := by
  obtain ⟨before, rest, rfl, tokenizes, -⟩ := transcript
  obtain ⟨part, leads, same⟩ := tokenizes.places member
  exact ⟨part, leads.trans (List.prefix_append ..), same⟩

theorem Transcript.ending_eq (transcript : Transcript text start tokens (.ok place)) :
    place = start.afterAll text := by
  obtain ⟨before, rest, rfl, -, leaves⟩ := transcript
  cases leaves
  rw [List.append_nil]

/-- What a parser says is malformed stands in the text. -/
theorem Feed.Fails.faultIn (fails : Feed.Fails tokens ending fault)
    (transcript : Transcript text start tokens ending) : FaultIn text start tokens fault := by
  cases fails with
  | token member =>
    obtain ⟨part, leads, same⟩ := transcript.places member
    rw [same]
    exact .malformed leads
  | finish =>
    rw [transcript.ending_eq]
    exact .malformed List.prefix_rfl
  | met => exact transcript.faultIn

/-- How a run may end on a text: with a status, at an unreadable numeral, or at a place in the text that
is too long to be written. A numeral that is met in reading an expression stands where the expression
goes on. -/
inductive RunEnds (text : List CodePoint) (start : Position) (listsTokens : Bool) :
    Except Abort Nat → Prop where
  | status {code : Nat} (small : code ≤ 1) : RunEnds text start listsTokens (.ok code)
  | numeral {cause : NumeralFault} {tokens : List Token} (stuck : Stuck text start tokens)
      (goesOn : listsTokens = false → Completable tokens) :
      RunEnds text start listsTokens (.error (.unreadable (.numeral cause)))
  | long {part : List CodePoint} (leads : part <+: text)
      (unwritable : (start.afterAll part).place.isWritable = false) :
      RunEnds text start listsTokens (.error .longNumber)

theorem Report.ofFault_ends {listsTokens : Bool} (output warnings : Text)
    (faultIn : FaultIn text start tokens fault)
    (goesOn : ∀ cause, fault = .numeral cause → listsTokens = false → Completable tokens) :
    RunEnds text start listsTokens (Report.ofFault start.place output warnings fault).status := by
  cases faultIn with
  | numeral stuck => exact .numeral stuck (goesOn _ rfl)
  | @malformed problem part leads =>
    rw [Report.ofFault, Place.shown_place]
    cases writable : (start.afterAll part).place.isWritable with
    | true => exact .status (Nat.le_refl 1)
    | false => exact .long leads writable

theorem exists_of_takeWhile_lt {α : Type} {p : α → Bool} {items : List α}
    (cut : (items.takeWhile p).length < items.length) : ∃ item ∈ items, p item = false := by
  induction items with
  | nil => cases cut
  | cons item items ih =>
    cases holds : p item with
    | false => exact ⟨item, List.mem_cons_self .., holds⟩
    | true =>
      rw [List.takeWhile_cons_of_pos holds] at cut
      obtain ⟨other, member, fails⟩ := ih (Nat.lt_of_succ_lt_succ cut)
      exact ⟨other, List.mem_cons_of_mem _ member, fails⟩

theorem Report.ofTokens_ends (source : Text) (start : Position) :
    RunEnds source.toList start true
      (Report.ofTokens start.place (Lexer.ofText source start)).status := by
  obtain ⟨tokens, ending, transcript⟩ := exists_transcript source.toList start
  have feeds : Feeds (Lexer.ofText source start) tokens ending := transcript.feeds []
  obtain ⟨after, collected, -⟩ := feeds.collect_eq
  simp only [Report.ofTokens, collected, Place.shown_place]
  split
  · next cut =>
    obtain ⟨token, member, unwritable⟩ := exists_of_takeWhile_lt cut
    obtain ⟨part, leads, same⟩ := transcript.places member
    rw [same] at unwritable
    exact .long leads unwritable
  · cases ending with
    | ok place => exact .status (Nat.zero_le 1)
    | error fault =>
      refine Report.ofFault_ends _ _ transcript.faultIn ?_
      intro cause same lists
      cases lists

variable {expr : Expr} {source : Text}

theorem Format.render_ends (format : Format) (readable : expr.WellFormed Value.IsReadable)
    (placed : ∀ node ∈ expr.walk, ∃ part, part <+: text ∧ node.position = start.afterAll part) :
    (∃ shown, format.render start.place.shown expr = .ok shown) ∨
      format.render start.place.shown expr = .error .longNumber ∧
        ∃ part, part <+: text ∧ (start.afterAll part).place.isWritable = false := by
  obtain ⟨shown, shows⟩ := format.exists_shows readable
  rw [render_of_shows shows]
  split
  · exact .inl ⟨_, rfl⟩
  · next unwritable =>
    obtain ⟨position, member, long⟩ := exists_unwritable unwritable
    obtain ⟨node, listed, rfl⟩ := exists_node_of_mem_places member
    obtain ⟨part, leads, same⟩ := placed node listed
    rw [same] at long
    exact .inr ⟨rfl, part, leads, long⟩

theorem Report.ofExpr_ends (format : Format) {lexer : Lexer} {warnings : List Text} (said : Text)
    (read : Reading.ofText source start = (⟨.ok expr, warnings⟩, lexer)) (listsTokens : Bool) :
    RunEnds source.toList start listsTokens
      (Report.ofExpr start.place format expr lexer said).status := by
  obtain ⟨tokens, ending, transcript⟩ := exists_transcript source.toList start
  have feeds : Feeds (Lexer.ofText source start) tokens ending := transcript.feeds []
  have ran := Reading.ofSource_eq_ok_iff.mp read
  obtain ⟨shown, settled⟩ := expression_settled feeds ran
  obtain ⟨front, rest, rfl, phrase, -, left, -⟩ := expression_leaves feeds ran
  have readable := Reading.wellFormed_of_ofText (congrArg (·.1.outcome) read)
  have placed : ∀ node ∈ expr.walk, ∃ part, part <+: source.toList ∧
      node.position = start.afterAll part := by
    intro node member
    obtain ⟨token, listed, same⟩ := List.mem_map.mp (phrase.positions node member)
    rw [← same]
    exact transcript.places (List.mem_append_left _ listed)
  rcases format.render_ends readable placed with ⟨text, rendered⟩ | ⟨rendered, part, leads, unwritable⟩
  · simp only [Report.ofExpr, rendered, settled]
    cases next : left.shown_eq settled
    cases rest with
    | nil => exact .status (Nat.zero_le 1)
    | cons token rest =>
      obtain ⟨part, leads, same⟩ := transcript.places (List.mem_append_right front (List.mem_cons_self ..))
      simp only [List.head?_cons, Place.shown_place, same]
      cases writable : (start.afterAll part).place.isWritable with
      | true => exact .status (Nat.zero_le 1)
      | false => exact .long leads writable
  · simp only [Report.ofExpr, rendered]
    exact .long leads unwritable

section Request

variable {request : Request} {format : Format} (input : request.input = .text source)
  (named : Format.ofName? request.format = some format) (begins : request.start = start.place)
include input named begins

theorem Report.ofRequest_text :
    Report.ofRequest request = Report.ofSource request format (Lexer.ofText source start) := by
  simp only [Report.ofRequest, named, input, Input.content, Report.ofText, begins, Place.position?_place]

/-- A run on a text ends in one of these ways. -/
theorem Report.ofRequest_ends :
    RunEnds source.toList start request.listsTokens (Report.ofRequest request).status := by
  rw [ofRequest_text input named begins, Report.ofSource, begins]
  cases lists : request.listsTokens with
  | true => exact Report.ofTokens_ends source start
  | false =>
    obtain ⟨tokens, ending, transcript⟩ := exists_transcript source.toList start
    have feeds : Feeds (Lexer.ofText source start) tokens ending := transcript.feeds []
    cases read : Reading.ofSource (Lexer.ofText source start) with
    | mk reading lexer =>
      obtain ⟨outcome, warnings⟩ := reading
      cases outcome with
      | ok expr => exact Report.ofExpr_ends format _ read false
      | error fault =>
        have failed : (Reading.ofSource (Lexer.ofText source start)).1.outcome = .error fault := by
          rw [read]
        refine Report.ofFault_ends _ _ ((feeds.fails failed).faultIn transcript) ?_
        rintro cause rfl -
        exact feeds.completable_of_met failed

/-- A numeral that is met in reading an expression breaks the run off. -/
theorem Report.ofRequest_numeral (reads : request.listsTokens = false)
    (failed : (Reading.ofText source start).1.outcome = .error (.numeral cause)) :
    (Report.ofRequest request).status = .error (.unreadable (.numeral cause)) := by
  rw [Reading.ofText] at failed
  rw [ofRequest_text input named begins, Report.ofSource, reads]
  simp only [Bool.false_eq_true, ↓reduceIte, failed, Report.ofFault]

end Request

theorem tokenize_numeral_iff :
    (∃ cause, tokenize source start = .error (.numeral cause)) ↔
      ∃ tokens, Stuck source.toList start tokens := by
  constructor
  · rintro ⟨cause, failed⟩
    obtain ⟨tokens, ending, transcript⟩ := exists_transcript source.toList start
    rw [transcript.tokenize_eq] at failed
    cases ending with
    | ok place => cases failed
    | error fault =>
      cases failed
      exact ⟨tokens, Transcript.numeral_iff.mp ⟨cause, transcript⟩⟩
  · rintro ⟨tokens, stuck⟩
    obtain ⟨cause, transcript⟩ := Transcript.numeral_iff.mpr stuck
    exact ⟨cause, transcript.tokenize_eq⟩

theorem Reading.numeral_iff :
    (∃ cause, (Reading.ofText source start).1.outcome = .error (.numeral cause)) ↔
      ∃ tokens, Stuck source.toList start tokens ∧ Completable tokens := by
  constructor
  · rintro ⟨cause, failed⟩
    obtain ⟨tokens, ending, transcript⟩ := exists_transcript source.toList start
    have feeds : Feeds (Lexer.ofText source start) tokens ending := transcript.feeds []
    obtain ⟨rfl, completable⟩ := feeds.numeral_iff.mp failed
    exact ⟨tokens, Transcript.numeral_iff.mp ⟨cause, transcript⟩, completable⟩
  · rintro ⟨tokens, stuck, completable⟩
    obtain ⟨cause, transcript⟩ := Transcript.numeral_iff.mpr stuck
    have feeds : Feeds (Lexer.ofText source start) tokens _ := transcript.feeds []
    exact ⟨cause, feeds.numeral_iff.mpr ⟨rfl, completable⟩⟩

end Text

/-- Tokenizing a text and reading an expression off it fail with a fault that has a place in the text, or
at a numeral. The second happens exactly if the text comes to an unreadable numeral, which a reading
meets where the expression goes on. But for that, and for places that are too long, a run on a text
with a known format ends with status 0 or 1. -/
theorem only_numerals_escape (source : Text) (start : Position) :
    (∀ fault, tokenize source start = .error fault ∨ (Reading.ofText source start).1.outcome = .error fault →
        ∃ tokens, FaultIn source.toList start tokens fault) ∧
      ((∃ cause, tokenize source start = .error (.numeral cause)) ↔
        ∃ tokens, Stuck source.toList start tokens) ∧
      ((∃ cause, (Reading.ofText source start).1.outcome = .error (.numeral cause)) ↔
        ∃ tokens, Stuck source.toList start tokens ∧ Completable tokens) ∧
      ∀ request format, request.input = .text source →
        Format.ofName? request.format = some format → request.start = start.place →
          RunEnds source.toList start request.listsTokens (Report.ofRequest request).status := by
  refine ⟨?_, tokenize_numeral_iff, Reading.numeral_iff, fun request format => Report.ofRequest_ends⟩
  obtain ⟨tokens, ending, transcript⟩ := exists_transcript source.toList start
  have feeds : Feeds (Lexer.ofText source start) tokens ending := transcript.feeds []
  rintro fault (failed | failed)
  · rw [transcript.tokenize_eq] at failed
    cases ending with
    | ok place => cases failed
    | error met =>
      cases failed
      exact ⟨tokens, transcript.faultIn⟩
  · exact ⟨tokens, (feeds.fails failed).faultIn transcript⟩

/-- The superscript two counts as a digit but has no place value. Neither tokenizing nor reading it tells a
place, and a run on it breaks off. -/
theorem superscript_escapes :
    let request : Request := ⟨.text "²", "repr", false, true, Position.place ⟨1, 1⟩, ""⟩
    Stuck (Text.ofString "²").toList ⟨1, 1⟩ [] ∧
      (∃ cause, tokenize "²" ⟨1, 1⟩ = .error (.numeral cause)) ∧
      ∃ cause, parse "²" = .error (.numeral cause) ∧
        (∃ tokens, FaultIn (Text.ofString "²").toList ⟨1, 1⟩ tokens (.numeral cause)) ∧
        RunEnds (Text.ofString "²").toList ⟨1, 1⟩ false (Report.ofRequest request).status ∧
        (Report.ofRequest request).status = .error (.unreadable (.numeral cause)) := by
  intro request
  have digit : Run Text.isDigit [scalar '²'] := List.forall_mem_singleton.mpr (by decide +kernel)
  have valueless : Unreadable [scalar '²'] :=
    .inl ⟨scalar '²', List.mem_singleton_self _, by decide, by decide +kernel⟩
  have longest : Longest IsNumeral ([scalar '²'] ++ []) [scalar '²'] :=
    ⟨⟨_, .whole (List.cons_ne_nil _ _) digit rfl⟩, List.prefix_rfl, fun _ _ leads => leads.length_le⟩
  have stuck : Stuck (Text.ofString "²").toList ⟨1, 1⟩ [] :=
    ⟨[], ['²'], [], rfl, .finish, longest, valueless⟩
  obtain ⟨more, expr, phrase⟩ := viable_nil .expression false
  obtain ⟨faults, listed, read, ends⟩ := only_numerals_escape "²" ⟨1, 1⟩
  obtain ⟨cause, failed⟩ := read.mpr ⟨[], stuck, more, expr, phrase⟩
  have begins : request.start = (⟨1, 1⟩ : Position).place := rfl
  have broken := Report.ofRequest_numeral rfl rfl begins rfl failed
  exact ⟨stuck, listed.mpr ⟨[], stuck⟩, cause, failed, faults _ (.inr failed),
    ends request .display rfl rfl begins, broken⟩

end StyleExpr
