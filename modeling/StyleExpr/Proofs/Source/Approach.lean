import StyleExpr.Proofs.Lexeme.Sealed
import StyleExpr.Proofs.Source.Drain

/-! The way of a source to a token, and of a lexer to a closing parenthesis. The text in front of the
parenthesis alone tells the tokens on the way, and where the lexer stands when it shows it. -/

namespace StyleExpr

open Lexeme

/-- `Leads token target source tokens`: the source gives the tokens one by one, and is `target` once
it shows the token behind them. -/
inductive Leads {σ : Type} [TokenSource σ] (token : Token) (target : σ) : σ → List Token → Prop where
  | here {source : σ} (looked : TokenSource.peek source = .ok (some token) target) :
      Leads token target source []
  | onward {source after : σ} {first : Token} {tokens : List Token}
      (looked : TokenSource.peek source = .ok (some first) after)
      (others : Leads token target (TokenSource.drop after) tokens) :
      Leads token target source (first :: tokens)

section Source

variable {σ : Type} [TokenSource σ] {source target : σ} {token : Token} {tokens more : List Token}
variable {ending : Except Fault Position}

theorem Leads.of_peek_eq {source' : σ} (same : TokenSource.peek source = TokenSource.peek source')
    (leads : Leads token target source' tokens) : Leads token target source tokens := by
  cases leads with
  | here looked => exact .here (same.trans looked)
  | onward looked others => exact .onward (same.trans looked) others

theorem Leads.unique {token' : Token} {target' : σ} (first : Leads token target source tokens)
    (second : Leads token' target' source tokens) : target = target' := by
  induction first with
  | here looked =>
    cases second with
    | here looked' =>
      rw [looked] at looked'
      cases looked'
      rfl
  | onward looked _ ih =>
    cases second with
    | onward looked' others' =>
      rw [looked] at looked'
      cases looked'
      exact ih others'

theorem Leads.length_lt [LawfulSource σ] (leads : Leads token target source tokens) :
    tokens.length < TokenSource.bound source := by
  induction leads with
  | here looked => exact Nat.zero_lt_of_lt (LawfulSource.bound_drop looked)
  | onward looked _ ih => exact Nat.lt_of_le_of_lt ih (LawfulSource.bound_drop looked)

theorem Feeds.leads (feeds : Feeds source (tokens ++ token :: more) ending) :
    ∃ target, Leads token target source tokens := by
  induction tokens generalizing source with
  | nil =>
    cases feeds with
    | token looked => exact ⟨_, .here looked⟩
  | cons first tokens ih =>
    cases feeds with
    | token looked others =>
      obtain ⟨target, leads⟩ := ih others
      exact ⟨target, .onward looked leads⟩

end Source

/-- `Tokenizes rest place front tokens`: in front of `rest`, the text `front` is made of the tokens,
with blanks between them. It begins at the given place. -/
inductive Tokenizes (rest : List CodePoint) : Position → List CodePoint → List Token → Prop where
  | finish {place : Position} : Tokenizes rest place [] []
  | blank {place : Position} {c : CodePoint} {front : List CodePoint} {tokens : List Token}
      (space : isSpace c = true) (others : Tokenizes rest (place.after c) front tokens) :
      Tokenizes rest place (c :: front) tokens
  | token {place : Position} {spelling front : List CodePoint} {lexeme : Lexeme} {tokens : List Token}
      (reads : Reads spelling (front ++ rest) lexeme)
      (others : Tokenizes rest (place.afterAll spelling) front tokens) :
      Tokenizes rest place (spelling ++ front) (lexeme.tokenAt place :: tokens)

variable {rest behind before blanks front : List CodePoint} {place : Position} {tokens : List Token}
variable {token : Token}

theorem Tokenizes.skip (space : Run isSpace blanks)
    (tokenizes : Tokenizes rest (place.afterAll blanks) front tokens) :
    Tokenizes rest place (blanks ++ front) tokens := by
  induction blanks generalizing place with
  | nil => exact tokenizes
  | cons c blanks ih =>
    have others := ih (fun d member => space d (List.mem_cons_of_mem _ member)) tokenizes
    exact .blank (space c (List.mem_cons_self ..)) others

theorem Tokenizes.of_blank (space : Run isSpace blanks) : Tokenizes rest place blanks [] := by
  have skipped : Tokenizes rest place (blanks ++ []) [] := .skip space .finish
  rwa [List.append_nil] at skipped

/-- What stands behind a closing parenthesis does not matter to the tokens in front of it. -/
theorem Tokenizes.sealed (tokenizes : Tokenizes (scalar ')' :: behind) place before tokens)
    (behind' : List CodePoint) : Tokenizes (scalar ')' :: behind') place before tokens := by
  induction tokenizes with
  | finish => exact .finish
  | blank space _ ih => exact .blank space ih
  | token reads _ ih => exact .token (reads.sealed behind') ih

/-- A lexer that shows the closing parenthesis behind a text, of which the characters of `back` were
read before. -/
def Lexer.atClosing (back before behind : List CodePoint) (place : Position) : Lexer :=
  ⟨⟨scalar ')' :: (before.reverse ++ back), behind, place.afterAll (before ++ [scalar ')'])⟩,
    some (closing.tokenAt (place.afterAll before))⟩

theorem Lexer.atClosing_append (back first second behind : List CodePoint) (place : Position) :
    atClosing back (first ++ second) behind place =
      atClosing (first.reverse ++ back) second behind (place.afterAll first) := by
  simp [atClosing, Position.afterAll_append]

theorem Tokenizes.leads (tokenizes : Tokenizes (scalar ')' :: behind) place before tokens)
    (back : List CodePoint) :
    Leads (closing.tokenAt (place.afterAll before)) (Lexer.atClosing back before behind place)
      ⟨⟨back, before ++ scalar ')' :: behind, place⟩, none⟩ tokens := by
  induction tokenizes generalizing back with
  | finish => exact .here (Lexer.peek_ok (Cursor.nextToken_reads (reads_closing behind) back _))
  | @blank place c front tokens space _ ih =>
    have leads := (ih (c :: back)).of_peek_eq (Lexer.peek_blank space back place)
    rwa [← List.singleton_append, Lexer.atClosing_append]
  | @token place spelling front lexeme tokens reads _ ih =>
    have looked := Lexer.peek_ok (Cursor.nextToken_reads reads back place)
    rw [Lexer.atClosing_append, List.append_assoc, Position.afterAll_append]
    exact .onward looked (ih (spelling.reverse ++ back))

theorem Lexeme.Longest.outside {isMember : CodePoint → Bool} {text : List CodePoint} {c : CodePoint}
    (longest : Longest (Run isMember) text front) (split : text = front ++ c :: rest) :
    isMember c = false := by
  rw [← Bool.not_eq_true]
  intro member
  have run : Run isMember (front ++ [c]) := by
    intro d inside
    rcases List.mem_append.mp inside with earlier | last
    · exact longest.formed d earlier
    · rwa [List.mem_singleton.mp last]
  have leads : front ++ [c] <+: text := ⟨rest, by rw [split, List.append_assoc]; rfl⟩
  have bounded := longest.longest _ run leads
  rw [List.length_append] at bounded
  exact Nat.not_succ_le_self _ bounded

/-- A token that is read stands behind blanks, and the cursor is left right behind it. -/
theorem Cursor.nextToken_token {cursor after : Cursor}
    (found : cursor.nextToken = .ok (some token) after) :
    ∃ blanks spelling rest lexeme, cursor.ahead = blanks ++ (spelling ++ rest) ∧
      Run isSpace blanks ∧ Reads spelling rest lexeme ∧
      token = lexeme.tokenAt (cursor.position.afterAll blanks) ∧
      after.ahead = rest ∧ after.position = cursor.position.afterAll (blanks ++ spelling) := by
  have space := longest_takeWhile isSpace cursor.ahead
  obtain ⟨text, split⟩ := space.leads
  generalize cursor.ahead.takeWhile isSpace = blanks at space split
  cases text with
  | nil =>
    rw [List.append_nil] at split
    rw [nextToken_of_blank (split ▸ space.formed)] at found
    cases found
  | cons c rest =>
    obtain ⟨spelling, ⟨behind, leads⟩, length, lexical⟩ := lexical_scan c rest
    rw [nextToken_of_scan space split.symm rfl, length, ← List.length_append] at found
    cases scanned : (scan c rest).found with
    | error flaw =>
      rw [scanned] at found
      cases found
    | ok lexeme =>
      rw [scanned] at found lexical
      cases found
      have positive := scan_length_pos scanned
      rw [length] at positive
      obtain ⟨d, back, rfl⟩ := List.exists_cons_of_length_pos positive
      obtain ⟨rfl, rfl⟩ := List.cons.inj leads
      have reads : Reads (d :: back) behind lexeme :=
        reads_iff.mpr ⟨⟨d, back, rfl, space.outside split.symm⟩, lexical⟩
      have whole : cursor.ahead = (blanks ++ (d :: back)) ++ behind := by
        rw [← split, List.append_assoc]
        rfl
      refine ⟨blanks, d :: back, behind, lexeme, split.symm, space.formed, reads, rfl, ?_, ?_⟩
      · rw [skip, whole, List.drop_left]
      · rw [skip, whole, List.take_left]

/-- A lexer that is led to a closing parenthesis stands in front of the text that tells the way. -/
theorem Leads.tokenizes {lexer target : Lexer} (leads : Leads token target lexer tokens)
    (fresh : lexer.shown = none) (closes : token.kind = .closeParen) :
    ∃ before behind, lexer.cursor.ahead = before ++ scalar ')' :: behind ∧
      Tokenizes (scalar ')' :: behind) lexer.cursor.position before tokens ∧
      token = closing.tokenAt (lexer.cursor.position.afterAll before) := by
  induction leads with
  | here looked =>
    rcases Lexer.peek_cases looked with ⟨head, shown, -⟩ | ⟨cursor, found, -⟩
    · rw [fresh] at shown
      cases shown
    · obtain ⟨blanks, spelling, rest, lexeme, split, space, reads, rfl, -⟩ :=
        Cursor.nextToken_token found
      obtain ⟨rfl, rfl⟩ := reads.closing_eq closes
      exact ⟨blanks, rest, split, .of_blank space, rfl⟩
  | onward looked others ih =>
    rcases Lexer.peek_cases looked with ⟨head, shown, -⟩ | ⟨cursor, found, rfl⟩
    · rw [fresh] at shown
      cases shown
    · obtain ⟨blanks, spelling, rest, lexeme, split, space, reads, rfl, ahead, place⟩ :=
        Cursor.nextToken_token found
      obtain ⟨before, behind, split', way, same⟩ := ih rfl
      simp only [TokenSource.drop, ahead, place] at split' way same
      subst split'
      rw [Position.afterAll_append] at way same
      refine ⟨blanks ++ (spelling ++ before), behind, ?_, .skip space (.token reads way), ?_⟩
      · rw [split, List.append_assoc, List.append_assoc]
      · rw [same, Position.afterAll_append, Position.afterAll_append]

/-- Where a lexer is led to a closing parenthesis, it is led there whatever stands behind that. -/
theorem Leads.sealed {target : Lexer} {text : List CodePoint} (closes : token.kind = .closeParen)
    (leads : Leads token target ⟨⟨[], text, place⟩, none⟩ tokens) :
    ∃ before behind, text = before ++ scalar ')' :: behind ∧
      token = closing.tokenAt (place.afterAll before) ∧
      target = Lexer.atClosing [] before behind place ∧
      ∀ behind', Leads token (Lexer.atClosing [] before behind' place)
        ⟨⟨[], before ++ scalar ')' :: behind', place⟩, none⟩ tokens := by
  obtain ⟨before, behind, split, way, rfl⟩ := leads.tokenizes rfl closes
  simp only at split way
  subst split
  exact ⟨before, behind, rfl, rfl, leads.unique (way.leads []),
    fun behind' => (way.sealed behind').leads []⟩

end StyleExpr
