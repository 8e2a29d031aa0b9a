import StyleExpr.Proofs.Grammar.Faults
import StyleExpr.Proofs.Lexeme.Parted
import StyleExpr.Proofs.RoundTrip
import StyleExpr.Proofs.Source.Transcript

/-! Texts as spellings with blanks between them. A text that can be tokenized is made of the spellings of
its tokens, and other blanks between these change nothing but places. -/

namespace StyleExpr

open Lexeme

/-- The spelling of a lexeme, with the blanks in front of it. -/
structure Piece where
  blanks : List CodePoint
  spelling : List CodePoint

def layout : List Piece → List CodePoint → List CodePoint
  | [], last => last
  | piece :: pieces, last => piece.blanks ++ (piece.spelling ++ layout pieces last)

/-- `Laid place pieces tokens`: the pieces, the first of which begins at the given place, spell the
tokens, each token at the place where its spelling begins. -/
inductive Laid : Position → List Piece → List Token → Prop where
  | finish {place : Position} : Laid place [] []
  | piece {place : Position} {piece : Piece} {pieces : List Piece} {lexeme : Lexeme}
      {tokens : List Token} (space : Run isSpace piece.blanks) (reads : Reads piece.spelling [] lexeme)
      (others : Laid (place.afterAll (piece.blanks ++ piece.spelling)) pieces tokens) :
      Laid place (piece :: pieces) (lexeme.tokenAt (place.afterAll piece.blanks) :: tokens)

section Laid

variable {place : Position} {piece : Piece} {pieces pieces' : List Piece} {tokens : List Token}
variable {token : Token} {rest front last : List CodePoint}

theorem Tokenizes.laid (tokenizes : Tokenizes rest place front tokens) :
    ∃ pieces last, front = layout pieces last ∧ Run isSpace last ∧ Laid place pieces tokens := by
  induction tokenizes with
  | finish => exact ⟨[], [], rfl, run_nil, .finish⟩
  | @blank place c front tokens space _ ih =>
    obtain ⟨pieces, last, rfl, blank, laid⟩ := ih
    cases laid with
    | finish => exact ⟨[], c :: last, rfl, List.forall_mem_cons.mpr ⟨space, blank⟩, .finish⟩
    | @piece _ piece pieces lexeme tokens space' reads others =>
      refine ⟨⟨c :: piece.blanks, piece.spelling⟩ :: pieces, last, rfl, blank, ?_⟩
      exact .piece (List.forall_mem_cons.mpr ⟨space, space'⟩) reads others
  | @token place spelling front lexeme tokens reads _ ih =>
    obtain ⟨pieces, last, rfl, blank, laid⟩ := ih
    refine ⟨⟨[], spelling⟩ :: pieces, last, rfl, blank, ?_⟩
    exact Laid.piece run_nil (reads.parted parted_nil) laid

theorem Laid.length_eq (laid : Laid place pieces tokens) : pieces.length = tokens.length := by
  induction laid with
  | finish => rfl
  | piece _ _ _ ih => rw [List.length_cons, List.length_cons, ih]

/-- Each piece spells its token, which has the place behind all that stands in front of the spelling. -/
theorem Laid.at (laid : Laid place pieces tokens) {i : Nat} (found : pieces[i]? = some piece)
    (given : tokens[i]? = some token) :
    Run isSpace piece.blanks ∧ Reads piece.spelling [] token.lexeme ∧
      token.position = place.afterAll (layout (pieces.take i) piece.blanks) := by
  induction laid generalizing i with
  | finish => cases found
  | piece space reads _ ih =>
    cases i with
    | zero =>
      cases found
      cases given
      exact ⟨space, reads, rfl⟩
    | succ i =>
      obtain ⟨space', reads', place⟩ := ih found given
      refine ⟨space', reads', ?_⟩
      rw [place, List.take_succ_cons, layout, ← List.append_assoc, ← Position.afterAll_append]

theorem Laid.respaced (laid : Laid place pieces tokens)
    (same : pieces'.map Piece.spelling = pieces.map Piece.spelling)
    (space : ∀ piece ∈ pieces', Run isSpace piece.blanks) (place' : Position) :
    ∃ tokens', Laid place' pieces' tokens' ∧ tokens'.map Token.lexeme = tokens.map Token.lexeme := by
  induction laid generalizing pieces' place' with
  | finish =>
    obtain rfl := List.map_eq_nil_iff.mp same
    exact ⟨[], .finish, rfl⟩
  | @piece _ piece pieces lexeme tokens _ reads _ ih =>
    obtain ⟨piece', pieces', rfl, spelling, others⟩ := List.map_eq_cons_iff.mp same
    obtain ⟨blank, blanks⟩ := List.forall_mem_cons.mp space
    obtain ⟨tokens', laid, lexemes⟩ := ih others blanks _
    refine ⟨_, .piece blank (spelling ▸ reads) laid, ?_⟩
    rw [List.map_cons, List.map_cons, lexemes, lexeme_tokenAt, lexeme_tokenAt]

theorem parted_layout (space : ∀ piece ∈ pieces, Run isSpace piece.blanks)
    (apart : ∀ piece ∈ pieces, piece.blanks ≠ []) (blank : Run isSpace last) :
    Parted (layout pieces last) := by
  cases pieces with
  | nil => exact blank.parted
  | cons piece pieces =>
    have member : piece ∈ piece :: pieces := List.mem_cons_self ..
    exact parted_append (space piece member) (apart piece member) _

theorem Laid.space (laid : Laid place pieces tokens) : ∀ piece ∈ pieces, Run isSpace piece.blanks := by
  induction laid with
  | finish => exact List.forall_mem_nil _
  | piece space _ _ ih => exact List.forall_mem_cons.mpr ⟨space, ih⟩

theorem Laid.tokenizes (laid : Laid place pieces tokens)
    (apart : ∀ piece ∈ pieces.tail, piece.blanks ≠ []) (blank : Run isSpace last) :
    Tokenizes [] place (layout pieces last) tokens := by
  induction laid with
  | finish => exact .of_blank blank
  | @piece _ piece pieces lexeme tokens space reads others ih =>
    have parted : Parted (layout pieces last ++ []) := by
      rw [List.append_nil]
      exact parted_layout others.space apart blank
    have onward := ih fun piece member => apart piece (List.mem_of_mem_tail member)
    rw [Position.afterAll_append] at onward
    exact .skip space (.token (reads.parted parted) onward)

theorem tokenize_spelling {spelling : List CodePoint} {lexeme : Lexeme} (reads : Reads spelling [] lexeme)
    (place : Position) : tokenize (Text.ofList spelling) place = .ok [lexeme.tokenAt place] := by
  have tokenizes : Tokenizes [] place (spelling ++ []) [lexeme.tokenAt place] := .token reads .finish
  rw [List.append_nil] at tokenizes
  rwa [tokenize_eq_ok_iff_tokenizes, Text.toList_ofList]

end Laid

/-- Two readings that differ in places at most: the same tree, or the same problem, and the same
warnings. -/
inductive Reading.Alike : Reading → Reading → Prop where
  | read {expr expr' : Expr} {warnings : List Text} (same : expr'.same expr = true) :
      Alike ⟨.ok expr, warnings⟩ ⟨.ok expr', warnings⟩
  | failed {problem : Problem} {place place' : Position} {warnings : List Text} :
      Alike ⟨.error (.malformed problem place), warnings⟩ ⟨.error (.malformed problem place'), warnings⟩

theorem Token.moved_default (token : Token) :
    token.moved (fun _ => default) = token.lexeme.tokenAt default := rfl

theorem Feed.moved_default {tokens tokens' : List Token} {place place' : Position}
    (same : tokens'.map Token.lexeme = tokens.map Token.lexeme) :
    (⟨tokens', .ok place'⟩ : Feed).moved (fun _ => default) =
      (⟨tokens, .ok place⟩ : Feed).moved (fun _ => default) := by
  have moved (tokens : List Token) : tokens.map (Token.moved fun _ => default) =
      (tokens.map Token.lexeme).map (·.tokenAt default) := by
    rw [List.map_map]
    exact List.map_congr_left fun token _ => token.moved_default
  simp only [Feed.moved, movedResult_ok, moved, same]

/-- Readings that are the same with all places forgotten are alike, if a tree can be read back and what
is malformed is all that fails. -/
theorem Reading.alike_of_moved {reading reading' : Reading}
    (moved : reading'.moved (fun _ => default) = reading.moved fun _ => default)
    (sound : ∀ expr, reading.outcome = .ok expr → expr.WellFormed Value.IsReadable)
    (fails : ∀ fault, reading.outcome = .error fault → ∃ problem place, fault = .malformed problem place) :
    reading.Alike reading' := by
  obtain ⟨outcome, warnings⟩ := reading
  obtain ⟨outcome', warnings'⟩ := reading'
  obtain ⟨outcomes, rfl⟩ := Reading.mk.inj moved
  cases outcome with
  | ok expr =>
    cases outcome' with
    | error fault' => cases outcomes
    | ok expr' =>
      have unplaced : expr'.unplaced = expr.unplaced := Except.ok.inj outcomes
      exact .read (Expr.same_of_unplaced (sound expr rfl) unplaced)
  | error fault =>
    cases outcome' with
    | ok expr' => cases outcomes
    | error fault' =>
      obtain ⟨problem, place, rfl⟩ := fails fault rfl
      have faults : fault'.moved (fun _ => default) = .malformed problem default :=
        Except.error.inj outcomes
      cases fault' with
      | malformed problem' place' =>
        obtain ⟨rfl, -⟩ := Fault.malformed.inj faults
        exact .failed
      | numeral | uncountable => cases faults

/-- Texts of the same lexemes are read alike. -/
theorem Reading.alike_of_lexemes {text text' : Text} {start start' : Position}
    {tokens tokens' : List Token} (tokenized : tokenize text start = .ok tokens)
    (tokenized' : tokenize text' start' = .ok tokens')
    (same : tokens'.map Token.lexeme = tokens.map Token.lexeme) :
    (ofText text start).1.Alike (ofText text' start').1 := by
  have feeds := feeds_of_tokenize tokenized
  have feeds' := feeds_of_tokenize tokenized'
  refine alike_of_moved ?_ (fun expr accepted => wellFormed_of_ofText accepted) ?_
  · rw [ofText, ofText, feeds.reading_eq, feeds'.reading_eq, ← ofSource_moved, ← ofSource_moved,
      Feed.moved_default same]
  · intro fault failed
    cases feeds.fails failed with
    | token | finish => exact ⟨_, _, rfl⟩

/-- A text that can be tokenized is made of the spellings of its tokens and of blanks. Each token has the
place where its spelling begins, and the spelling alone gives the same token. With other blanks, of
which there is one at least between two spellings, the text gives the same tokens at other places, and
it is read alike. -/
theorem tokenize_respaced {text : Text} {start : Position} {tokens : List Token}
    (tokenized : tokenize text start = .ok tokens) :
    ∃ pieces last, text.toList = layout pieces last ∧ Run isSpace last ∧
      pieces.length = tokens.length ∧
      (∀ i piece token, pieces[i]? = some piece → tokens[i]? = some token →
        Run isSpace piece.blanks ∧ piece.spelling ≠ [] ∧
          token.position = start.afterAll (layout (pieces.take i) piece.blanks) ∧
          ∀ place, tokenize (Text.ofList piece.spelling) place =
            .ok [{ token with position := place }]) ∧
      ∀ pieces' last' start', pieces'.map Piece.spelling = pieces.map Piece.spelling →
        (∀ piece ∈ pieces', Run isSpace piece.blanks) → (∀ piece ∈ pieces'.tail, piece.blanks ≠ []) →
          Run isSpace last' →
            ∃ tokens', tokenize (Text.ofList (layout pieces' last')) start' = .ok tokens' ∧
              tokens'.map Token.lexeme = tokens.map Token.lexeme ∧
              (Reading.ofText text start).1.Alike
                (Reading.ofText (Text.ofList (layout pieces' last')) start').1 := by
  obtain ⟨pieces, last, split, blank, laid⟩ := (tokenize_eq_ok_iff_tokenizes.mp tokenized).laid
  refine ⟨pieces, last, split, blank, laid.length_eq, ?_, ?_⟩
  · intro i piece token found given
    obtain ⟨space, reads, place⟩ := laid.at found given
    refine ⟨space, ?_, place, fun place => tokenize_spelling reads place⟩
    obtain ⟨c, back, spelling, -⟩ := reads
    rw [spelling]
    exact List.cons_ne_nil _ _
  · intro pieces' last' start' same space apart blank'
    obtain ⟨tokens', laid', lexemes⟩ := laid.respaced same space start'
    have tokenized' : tokenize (Text.ofList (layout pieces' last')) start' = .ok tokens' := by
      rw [tokenize_eq_ok_iff_tokenizes, Text.toList_ofList]
      exact laid'.tokenizes apart blank'
    exact ⟨tokens', tokenized', lexemes, Reading.alike_of_lexemes tokenized tokenized' lexemes⟩

/-- The three spellings of `1+2`, the first by itself, and each behind one blank. -/
theorem tokenize_respaced_sum :
    let one : Token := ⟨.number, .int 1, ⟨1, 1⟩, none⟩
    let plus : Token := ⟨.plus, .text "+", ⟨1, 2⟩, none⟩
    let two : Token := ⟨.number, .int 2, ⟨1, 3⟩, none⟩
    tokenize "1+2" ⟨1, 1⟩ = .ok [one, plus, two] ∧
      ∃ first pieces last, (Text.ofString "1+2").toList = layout (first :: pieces) last ∧ pieces.length = 2 ∧
        tokenize (Text.ofList first.spelling) ⟨1, 1⟩ = .ok [one] ∧
        ∃ tokens', tokenize
            (Text.ofList (layout ((first :: pieces).map fun piece => ⟨[' '], piece.spelling⟩) []))
            ⟨1, 1⟩ =
              .ok tokens' ∧
          tokens'.map Token.lexeme = [one, plus, two].map Token.lexeme := by
  intro one plus two
  have tokenized : tokenize "1+2" ⟨1, 1⟩ = .ok [one, plus, two] := rfl
  obtain ⟨_ | ⟨first, pieces⟩, last, split, -, counted, alone, respaced⟩ := tokenize_respaced tokenized
  · cases counted
  have single : Run isSpace [scalar ' '] := List.forall_mem_singleton.mpr rfl
  have blanks : ∀ piece ∈ (first :: pieces).map fun piece => Piece.mk [scalar ' '] piece.spelling,
      piece.blanks = [scalar ' '] := by
    intro piece member
    obtain ⟨_, -, rfl⟩ := List.mem_map.mp member
    rfl
  obtain ⟨-, -, -, read⟩ := alone 0 first one rfl rfl
  obtain ⟨tokens', tokenized', lexemes, -⟩ := respaced
    ((first :: pieces).map fun piece => ⟨[' '], piece.spelling⟩) [] ⟨1, 1⟩ (by simp [Function.comp_def])
    (fun piece member => blanks piece member ▸ single)
    (fun piece member => by simp [blanks piece (List.mem_of_mem_tail member)]) run_nil
  exact ⟨tokenized, first, pieces, last, split, Nat.succ.inj counted, read ⟨1, 1⟩, tokens', tokenized', lexemes⟩

end StyleExpr
