import StyleExpr.Proofs.Grammar.Dialogue
import StyleExpr.Proofs.Lexeme.Sealed

/-! The places that a lexer keeps. Whatever is asked of a lexer, at whatever level, and whatever goes
wrong, its place is the one that its index in the text has by the line feeds in front of it, and so
is the place of every token. A token is read where the lexer stands, and stays what it shows until it is
dropped. -/

namespace StyleExpr

open Lexeme

/-- The place that is told by the line feeds of the text in front of it, which begins at `start`. -/
structure Position.Counts (start : Position) (front : List CodePoint) (place : Position) : Prop where
  line : place.line = start.line + front.count (scalar '\n')
  first : scalar '\n' ∉ front → place.column = start.column + front.length
  /-- In a later line, columns are counted from the last line feed on. -/
  later : ∀ before rest, front = before ++ scalar '\n' :: rest → scalar '\n' ∉ rest →
    place.column = front.length - before.length

namespace Position

variable {start place : Position} {front : List CodePoint} {c : CodePoint}

/-- A text that ends in `c` has its last line feed there, or in front of that. -/
theorem last_line_feed {before rest : List CodePoint} (split : front ++ [c] = before ++ scalar '\n' :: rest) :
    front = before ∧ c = scalar '\n' ∧ rest = [] ∨
      ∃ rest', front = before ++ scalar '\n' :: rest' ∧ rest = rest' ++ [c] := by
  rcases List.eq_nil_or_concat rest with rfl | ⟨rest', d, rfl⟩
  · obtain ⟨rfl, same⟩ := List.append_inj' split rfl
    exact .inl ⟨rfl, List.singleton_inj.mp same, rfl⟩
  · rw [List.concat_eq_append, ← List.cons_append, ← List.append_assoc] at split
    obtain ⟨rfl, same⟩ := List.append_inj' split rfl
    exact .inr ⟨rest', rfl, by rw [List.concat_eq_append, List.singleton_inj.mp same]⟩

theorem Counts.after (counts : start.Counts front place) (c : CodePoint) :
    start.Counts (front ++ [c]) (place.after c) := by
  have length : (front ++ [c]).length = front.length + 1 := List.length_append
  by_cases feed : c = scalar '\n'
  · subst feed
    have count : (front ++ [scalar '\n']).count (scalar '\n') = front.count (scalar '\n') + 1 :=
      List.count_append
    refine ⟨?_, fun none => absurd (List.mem_append_right _ (List.mem_singleton_self _)) none, ?_⟩
    · show place.line + 1 = _
      rw [count, counts.line]
      omega
    · intro before rest split none
      rcases last_line_feed split with ⟨rfl, -, -⟩ | ⟨rest', -, rfl⟩
      · show 1 = _
        rw [length]
        omega
      · exact absurd (List.mem_append_right _ (List.mem_singleton_self _)) none
  · have column : (place.after c).column = place.column + 1 := by simp [Position.after, feed]
    refine ⟨?_, ?_, ?_⟩
    · simp [Position.after, feed, counts.line]
    · intro none
      have none' := mt (List.mem_append_left [c]) none
      rw [column, counts.first none', length]
      omega
    · intro before rest split none
      rcases last_line_feed split with ⟨-, same, -⟩ | ⟨rest', split', rfl⟩
      · exact absurd same feed
      · have none' := mt (List.mem_append_left [c]) none
        rw [column, counts.later before rest' split' none', length]
        omega

theorem Counts.afterAll (counts : start.Counts front place) (more : List CodePoint) :
    start.Counts (front ++ more) (place.afterAll more) := by
  induction more generalizing front place with
  | nil => rwa [List.append_nil]
  | cons c more ih =>
    rw [List.append_cons]
    exact ih (counts.after c)

theorem counts_afterAll (start : Position) (front : List CodePoint) :
    start.Counts front (start.afterAll front) := by
  have counts : start.Counts [] start := ⟨by simp, by simp, by simp⟩
  exact counts.afterAll front

end Position

inductive Lexer.Action where
  | query (query : TokenSource.Query)
  /-- Iterating to the end. An iteration that stops earlier is a series of questions for the next token. -/
  | collect
  | advance
  | peekChar (distance : Int)
  | skipSpace
  | readName
  | readSymbol
  | nextToken

inductive Lexer.Answer where
  | reply (reply : Reply)
  /-- The tokens of an iteration, and the fault in which it ended. -/
  | iterated (tokens : List Token) (fault : Option Fault)
  | char (c : Option CodePoint)
  | name (name : Text)
  | nothing

def Reply.given : Reply → List Token
  | token shown => shown.toList
  | _ => []

def Lexer.Answer.given : Lexer.Answer → List Token
  | reply answered => answered.given
  | iterated tokens _ => tokens
  | _ => []

/-- What became of an action, and how the lexer is left. -/
def Lexer.Action.put : Lexer.Action → Lexer → Except Fault Lexer.Answer × Lexer
  | query asked, lexer => outcome ((Answer.reply <$> asked.ask) lexer)
  | collect, lexer =>
    let iteration := TokenSource.collect lexer
    (.ok (.iterated iteration.1 iteration.2.1), iteration.2.2)
  | advance, lexer => outcome (((fun c => .char (some c)) <$> onCursor Cursor.next) lexer)
  | peekChar distance, lexer => (.ok (.char (lexer.cursor.peek distance)), lexer)
  | skipSpace, lexer => (.ok .nothing, { lexer with cursor := lexer.cursor.skipSpace })
  | readName, lexer =>
    (.ok (.name lexer.cursor.readName.1), { lexer with cursor := lexer.cursor.readName.2 })
  | readSymbol, lexer =>
    (.ok (.reply (.token lexer.cursor.readSymbol.1)), { lexer with cursor := lexer.cursor.readSymbol.2 })
  | nextToken, lexer => outcome (((fun token => .reply (.token token)) <$> onCursor Cursor.nextToken) lexer)

/-- A step of a lexer's run: the lexer that it met, what became of the action, and the lexer that it left. -/
structure Lexer.Step where
  before : Lexer
  answer : Except Fault Lexer.Answer
  lexer : Lexer

def Lexer.Step.given (step : Lexer.Step) : List Token :=
  match step.answer with
  | .ok answer => answer.given
  | .error _ => []

def Lexer.Action.take (action : Lexer.Action) (lexer : Lexer) : Lexer.Step × Lexer :=
  (⟨lexer, (action.put lexer).1, (action.put lexer).2⟩, (action.put lexer).2)

/-- A lexeme at the front of a text: one that the lexical grammar tells, or a fixed spelling by itself. -/
inductive Begins (text : List CodePoint) : List CodePoint → Lexeme → Prop where
  | lexical {front : List CodePoint} {lexeme : Lexeme} (lexical : Lexical text front (.ok lexeme)) :
      Begins text front lexeme
  | symbol {front : List CodePoint} {kind : TokenKind} (leads : front <+: text)
      (spelled : spelled? front = some kind) :
      Begins text front ⟨kind, .text (Text.ofList front), none⟩

/-- The token was read off the text in front of the given index, and has the place at which it begins. -/
def Token.StandsBefore (text : List CodePoint) (start : Position) (limit : Nat) (token : Token) : Prop :=
  ∃ index spelling, spelling ≠ [] ∧ index + spelling.length ≤ limit ∧
    Begins (text.drop index) spelling token.lexeme ∧ start.Counts (text.take index) token.position

/-- The token was read off the text behind blanks from the index `first` on and ends at the index `next`. -/
def Token.ReadFrom (text : List CodePoint) (start : Position) (first next : Nat) (token : Token) : Prop :=
  ∃ index spelling, first ≤ index ∧ (∀ c ∈ (text.take index).drop first, isSpace c = true) ∧
    spelling ≠ [] ∧ index + spelling.length = next ∧ Begins (text.drop index) spelling token.lexeme ∧
    start.Counts (text.take index) token.position

/-- The tokens were read off the text one behind the other, from one index on and not past another. -/
inductive TokensBetween (text : List CodePoint) (start : Position) : Nat → List Token → Nat → Prop where
  | nil {first limit : Nat} (onward : first ≤ limit) : TokensBetween text start first [] limit
  | cons {first next limit : Nat} {token : Token} {tokens : List Token}
      (read : token.ReadFrom text start first next) (others : TokensBetween text start next tokens limit) :
      TokensBetween text start first (token :: tokens) limit

/-- The cursor stands in the text at the place behind what it has read. -/
structure Cursor.Kept (text : List CodePoint) (start : Position) (cursor : Cursor) : Prop where
  source : cursor.source = text
  position : cursor.position = start.afterAll cursor.behind.reverse

/-- The lexer keeps its place, and the token that it shows was read before. -/
structure Lexer.Kept (text : List CodePoint) (start : Position) (lexer : Lexer) : Prop where
  cursor : lexer.cursor.Kept text start
  shown : ∀ token ∈ lexer.shown, token.StandsBefore text start lexer.cursor.index

/-- `Keeps lexer tokens after`: the second state of the lexer keeps its place, and what it shows and what
was handed over had been shown by the first, or was read off the text between the two. -/
structure Lexer.Keeps (text : List CodePoint) (start : Position) (lexer : Lexer) (tokens : List Token)
    (after : Lexer) : Prop where
  kept : after.Kept text start
  read : ∃ fresh, TokensBetween text start lexer.cursor.index fresh after.cursor.index ∧
    tokens.Sublist (lexer.shown.toList ++ fresh) ∧ after.shown.toList.Sublist (lexer.shown.toList ++ fresh)

section Upkeep

variable {text : List CodePoint} {start : Position} {cursor after : Cursor}
variable {token : Token} {tokens : List Token}
variable {first next limit : Nat}

theorem Token.StandsBefore.mono {more : Nat} (stands : token.StandsBefore text start limit)
    (onward : limit ≤ more) : token.StandsBefore text start more := by
  obtain ⟨index, spelling, nonempty, inside, begins, place⟩ := stands
  exact ⟨index, spelling, nonempty, Nat.le_trans inside onward, begins, place⟩

theorem Token.ReadFrom.le (read : token.ReadFrom text start first next) : first ≤ next := by
  obtain ⟨index, spelling, onward, -, -, rfl, -⟩ := read
  exact Nat.le_trans onward (Nat.le_add_right _ _)

theorem Token.ReadFrom.stands (read : token.ReadFrom text start first next) :
    token.StandsBefore text start next := by
  obtain ⟨index, spelling, -, -, nonempty, inside, begins, place⟩ := read
  exact ⟨index, spelling, nonempty, Nat.le_of_eq inside, begins, place⟩

theorem TokensBetween.le (read : TokensBetween text start first tokens limit) : first ≤ limit := by
  induction read with
  | nil onward => exact onward
  | cons read _ ih => exact Nat.le_trans read.le ih

theorem TokensBetween.stands (read : TokensBetween text start first tokens limit) :
    ∀ token ∈ tokens, token.StandsBefore text start limit := by
  induction read with
  | nil => exact List.forall_mem_nil _
  | cons read others ih => exact List.forall_mem_cons.mpr ⟨read.stands.mono others.le, ih⟩

theorem Token.ReadFrom.tokensBetween (read : token.ReadFrom text start first next) :
    TokensBetween text start first [token] next :=
  .cons read (.nil (Nat.le_refl _))

namespace Cursor

theorem index_skip (cursor : Cursor) (count : Nat) :
    (cursor.skip count).index = cursor.index + min count cursor.ahead.length := by
  simp [index, skip, Nat.add_comm]

theorem index_le_skip (cursor : Cursor) (count : Nat) : cursor.index ≤ (cursor.skip count).index := by
  rw [index_skip]
  exact Nat.le_add_right _ _

theorem Kept.skip (kept : cursor.Kept text start) (count : Nat) :
    (cursor.skip count).Kept text start where
  source := (cursor.source_skip count).trans kept.source
  position := by
    rw [Cursor.skip, kept.position, ← Position.afterAll_append, List.reverse_append, List.reverse_reverse]

theorem Kept.take_index (kept : cursor.Kept text start) :
    text.take cursor.index = cursor.behind.reverse := by
  rw [← kept.source, Cursor.source, index, List.take_left' List.length_reverse]

theorem Kept.drop_index (kept : cursor.Kept text start) : text.drop cursor.index = cursor.ahead := by
  rw [← kept.source, Cursor.source, index, List.drop_left' List.length_reverse]

theorem Kept.index_le (kept : cursor.Kept text start) : cursor.index ≤ text.length := by
  rw [← kept.source, Cursor.source, index, List.length_append, List.length_reverse]
  exact Nat.le_add_right _ _

/-- A lexeme at the cursor becomes a token that was read off the text in front of the cursor behind it. -/
theorem Kept.reads {spelling : List CodePoint} {lexeme : Lexeme} (kept : cursor.Kept text start)
    (onward : first ≤ cursor.index) (blank : ∀ c ∈ (text.take cursor.index).drop first, isSpace c = true)
    (begins : Begins cursor.ahead spelling lexeme) (nonempty : spelling ≠ [])
    (leads : spelling <+: cursor.ahead) :
    (lexeme.tokenAt cursor.position).ReadFrom text start first (cursor.skip spelling.length).index := by
  have reached : (cursor.skip spelling.length).index = cursor.index + spelling.length := by
    rw [index_skip, Nat.min_eq_left leads.length_le]
  refine ⟨cursor.index, spelling, onward, blank, nonempty, reached.symm, kept.drop_index ▸ begins, ?_⟩
  rw [kept.take_index, Lexeme.tokenAt, kept.position]
  exact start.counts_afterAll _

theorem Kept.blank (kept : cursor.Kept text start) :
    ∀ c ∈ (text.take cursor.skipSpace.index).drop cursor.index, isSpace c = true := by
  have skipped : (text.take cursor.skipSpace.index).drop cursor.index = cursor.ahead.takeWhile isSpace := by
    rw [skipSpace, index_skip, Nat.min_eq_left (List.takeWhile_prefix _).length_le, List.drop_take,
      kept.drop_index, Nat.add_sub_cancel_left]
    exact (List.prefix_iff_eq_take.mp (List.takeWhile_prefix _)).symm
  rw [skipped]
  exact List.all_eq_true.mp List.all_takeWhile

theorem Next.keeps {result : EStateM.Result Fault Cursor (Option Token)} (next : cursor.Next result)
    (kept : cursor.Kept text start) :
    (outcome result).2.Kept text start ∧ cursor.index ≤ (outcome result).2.index ∧
      ∀ token, (outcome result).1 = .ok (some token) →
        token.ReadFrom text start cursor.index (outcome result).2.index := by
  have skipped : cursor.skipSpace.Kept text start := kept.skip _
  have onward : cursor.index ≤ cursor.skipSpace.index := cursor.index_le_skip _
  cases next with
  | finish => exact ⟨skipped, onward, fun _ same => by cases same⟩
  | flaw => exact ⟨skipped.skip _, Nat.le_trans onward (index_le_skip ..), fun _ same => by cases same⟩
  | @token c rest lexeme ahead found =>
    refine ⟨skipped.skip _, Nat.le_trans onward (index_le_skip ..), ?_⟩
    obtain ⟨front, leads, length, lexical⟩ := lexical_scan c rest
    have positive := scan_length_pos found
    rw [found, ← ahead] at lexical
    rw [← ahead] at leads
    rw [length] at positive
    rintro token ⟨⟩
    rw [outcome, length]
    exact skipped.reads onward kept.blank (.lexical lexical) (List.ne_nil_of_length_pos positive) leads

end Cursor

namespace TokenSource

variable {σ : Type} {source left : σ} {fault : Fault}

theorem map_of_ok {α β : Type} {action : EStateM Fault σ α} {result : α} (image : α → β)
    (ran : action source = .ok result left) : (image <$> action) source = .ok (image result) left := by
  simp only [Functor.map, EStateM.map, ran]

theorem map_of_error {α β : Type} {action : EStateM Fault σ α} (image : α → β)
    (ran : action source = .error fault left) : (image <$> action) source = .error fault left := by
  simp only [Functor.map, EStateM.map, ran]

variable [TokenSource σ]

theorem isDone_of_ok {shown : Option Token} (looked : peek source = .ok shown left) :
    isDone source = .ok shown.isNone left := by
  simp only [isDone, bind, EStateM.bind, looked]
  rfl

theorem isDone_of_fault (looked : peek source = .error fault left) :
    isDone source = .error fault left := by
  simp only [isDone, bind, EStateM.bind, looked]

theorem ask_of_fault (looked : peek source = .error fault left) (query : Query) :
    query.ask source = .error fault left := by
  cases query with
  | peek => exact map_of_error _ looked
  | next => exact map_of_error _ (next_of_fault looked)
  | done => exact map_of_error _ (isDone_of_fault looked)
  | line | column => exact map_of_error _ (position_of_fault looked)

theorem ask_of_end (looked : peek source = .ok none left) (query : Query) :
    ∃ reply, query.ask source = .ok reply left ∧ reply.given.Sublist [] := by
  cases query with
  | peek => exact ⟨_, map_of_ok _ looked, List.Sublist.refl _⟩
  | next => exact ⟨_, map_of_ok _ (next_of_end looked), List.Sublist.refl _⟩
  | done => exact ⟨_, map_of_ok _ (isDone_of_ok looked), List.Sublist.refl _⟩
  | line | column => exact ⟨_, map_of_ok _ (position_of_end looked), List.Sublist.refl _⟩

/-- A question hands over the token that is shown, or none, and only asking for the next one drops it. -/
theorem ask_of_token (looked : peek source = .ok (some token) left) (query : Query) :
    ∃ reply after, query.ask source = .ok reply after ∧ (after = left ∨ after = drop left) ∧
      reply.given.Sublist [token] := by
  cases query with
  | peek => exact ⟨_, _, map_of_ok _ looked, .inl rfl, List.Sublist.refl _⟩
  | next => exact ⟨_, _, map_of_ok _ (next_of_token looked), .inr rfl, List.Sublist.refl _⟩
  | done => exact ⟨_, _, map_of_ok _ (isDone_of_ok looked), .inl rfl, List.nil_sublist _⟩
  | line | column =>
    exact ⟨_, _, map_of_ok _ (position_of_token looked), .inl rfl, List.nil_sublist _⟩

end TokenSource

namespace Lexer

variable {lexer left : Lexer} {tokens : List Token} {fault : Fault}

theorem Keeps.refl (kept : lexer.Kept text start) : lexer.Keeps text start [] lexer :=
  ⟨kept, [], .nil (Nat.le_refl _), List.nil_sublist _, List.sublist_append_left ..⟩

theorem Keeps.onward (keeps : lexer.Keeps text start tokens left) :
    lexer.cursor.index ≤ left.cursor.index := by
  obtain ⟨fresh, read, -⟩ := keeps.read
  exact read.le

theorem Keeps.stands (kept : lexer.Kept text start) (keeps : lexer.Keeps text start tokens left) :
    ∀ token ∈ tokens, token.StandsBefore text start left.cursor.index := by
  obtain ⟨fresh, read, given, -⟩ := keeps.read
  intro token member
  rcases List.mem_append.mp (given.subset member) with before | now
  · exact (kept.shown token (Option.mem_toList.mp before)).mono read.le
  · exact read.stands token now

/-- The cursor goes on over tokens that are handed over, and the token read ahead stays. -/
theorem Kept.keeps_cursor (kept : lexer.Kept text start) {cursor : Cursor}
    (moved : cursor.Kept text start)
    (read : TokensBetween text start lexer.cursor.index tokens cursor.index) :
    lexer.Keeps text start tokens { lexer with cursor } where
  kept := ⟨moved, fun token member => (kept.shown token member).mono read.le⟩
  read := ⟨tokens, read, List.sublist_append_right .., List.sublist_append_left ..⟩

theorem Keeps.drop (keeps : lexer.Keeps text start tokens left) :
    lexer.Keeps text start tokens (TokenSource.drop left) := by
  obtain ⟨fresh, read, given, -⟩ := keeps.read
  exact ⟨⟨keeps.kept.cursor, fun _ none => by cases none⟩, fresh, read, given, List.nil_sublist _⟩

theorem Keeps.fewer (keeps : lexer.Keeps text start tokens left) {some : List Token}
    (fewer : some.Sublist tokens) : lexer.Keeps text start some left := by
  obtain ⟨fresh, read, given, shows⟩ := keeps.read
  exact ⟨keeps.kept, fresh, read, fewer.trans given, shows⟩

/-- A lexer shows the token that it has read ahead, or reads the next one where it stands. -/
theorem Kept.peek {shown : Option Token} (kept : lexer.Kept text start)
    (looked : TokenSource.peek lexer = .ok shown left) :
    left = lexer ∧ shown = lexer.shown ∨
      left.Kept text start ∧ left.shown = shown ∧
        TokensBetween text start lexer.cursor.index shown.toList left.cursor.index ∧
        ∀ token ∈ shown, token.ReadFrom text start lexer.cursor.index left.cursor.index := by
  rcases peek_cases looked with ⟨head, showing, rfl, rfl⟩ | ⟨cursor, found, rfl⟩
  · exact .inl ⟨rfl, showing.symm⟩
  · have next := lexer.cursor.next_nextToken
    rw [found] at next
    obtain ⟨moved, onward, reads⟩ := next.keeps kept.cursor
    have read : ∀ token ∈ shown, token.ReadFrom text start lexer.cursor.index cursor.index :=
      fun token same => reads token (congrArg Except.ok same)
    refine .inr ⟨⟨moved, fun token same => (read token same).stands⟩, rfl, ?_, read⟩
    cases shown with
    | none => exact .nil onward
    | some token => exact (read token rfl).tokensBetween

theorem keeps_peek_ok {shown : Option Token} (kept : lexer.Kept text start)
    (looked : TokenSource.peek lexer = .ok shown left) :
    lexer.Keeps text start shown.toList left := by
  rcases kept.peek looked with ⟨rfl, rfl⟩ | ⟨kept', rfl, read, -⟩
  · exact ⟨kept, [], .nil (Nat.le_refl _), List.sublist_append_left .., List.sublist_append_left ..⟩
  · exact ⟨kept', _, read, List.sublist_append_right .., List.sublist_append_right ..⟩

theorem keeps_peek_error (kept : lexer.Kept text start)
    (looked : TokenSource.peek lexer = .error fault left) : lexer.Keeps text start [] left := by
  obtain ⟨-, cursor, found, rfl⟩ := peek_fault_cases looked
  have next := lexer.cursor.next_nextToken
  rw [found] at next
  obtain ⟨moved, onward, -⟩ := next.keeps kept.cursor
  exact ⟨⟨moved, fun _ none => by cases none⟩, [], .nil onward, List.nil_sublist _, List.nil_sublist _⟩

theorem keeps_query (kept : lexer.Kept text start) (asked : TokenSource.Query) :
    lexer.Keeps text start ((Action.query asked).take lexer).1.given ((Action.query asked).take lexer).2 := by
  cases looked : TokenSource.peek lexer with
  | error fault left =>
    have same := TokenSource.ask_of_fault looked asked
    simp only [Action.take, Action.put, TokenSource.map_of_error _ same]
    exact keeps_peek_error kept looked
  | ok shown left =>
    have keeps := keeps_peek_ok kept looked
    cases shown with
    | none =>
      obtain ⟨reply, same, given⟩ := TokenSource.ask_of_end looked asked
      simp only [Action.take, Action.put, TokenSource.map_of_ok _ same, outcome]
      exact keeps.fewer given
    | some token =>
      obtain ⟨reply, after, same, left, given⟩ := TokenSource.ask_of_token looked asked
      simp only [Action.take, Action.put, TokenSource.map_of_ok _ same, outcome]
      rcases left with rfl | rfl
      · exact keeps.fewer given
      · exact keeps.drop.fewer given

/-- A token that was shown and dropped is followed by those that are read behind it. -/
theorem Keeps.behind {between : Lexer} (kept : lexer.Kept text start)
    (looked : TokenSource.peek lexer = .ok (some token) between)
    (others : (TokenSource.drop between).Keeps text start tokens left) :
    lexer.Keeps text start (token :: tokens) left := by
  obtain ⟨kept', fresh, read, given, shows⟩ := others
  rcases kept.peek looked with ⟨rfl, same⟩ | ⟨-, -, -, reads⟩
  · refine ⟨kept', fresh, read, ?_, shows.trans (List.sublist_append_right ..)⟩
    rw [← same]
    exact given.cons_cons token
  · refine ⟨kept', token :: fresh, .cons (reads token rfl) read, ?_, ?_⟩
    · exact (given.cons_cons token).trans (List.sublist_append_right ..)
    · exact (shows.cons token).trans (List.sublist_append_right ..)

theorem keeps_collectUpTo (kept : lexer.Kept text start) (count : Nat) :
    lexer.Keeps text start (TokenSource.collectUpTo count lexer).1
      (TokenSource.collectUpTo count lexer).2.2 := by
  induction count generalizing lexer with
  | zero => exact .refl kept
  | succ count ih =>
    cases looked : TokenSource.peek lexer with
    | error fault left =>
      simp only [TokenSource.collectUpTo, TokenSource.next_of_fault looked]
      exact keeps_peek_error kept looked
    | ok shown left =>
      have keeps := keeps_peek_ok kept looked
      cases shown with
      | none =>
        simp only [TokenSource.collectUpTo, TokenSource.next_of_end looked]
        exact keeps
      | some token =>
        simp only [TokenSource.collectUpTo, TokenSource.next_of_token looked]
        exact .behind kept looked (ih keeps.drop.kept)

theorem keeps_skip (kept : lexer.Kept text start) (count : Nat) :
    lexer.Keeps text start [] { lexer with cursor := lexer.cursor.skip count } :=
  kept.keeps_cursor (kept.cursor.skip count) (.nil (Cursor.index_le_skip ..))

theorem keeps_advance (kept : lexer.Kept text start) :
    lexer.Keeps text start (Action.advance.take lexer).1.given (Action.advance.take lexer).2 := by
  cases ahead : lexer.cursor.ahead with
  | nil =>
    have same : onCursor Cursor.next lexer = .error (.malformed .endOfText lexer.cursor.position) lexer := by
      simp only [onCursor, Cursor.next, ahead]
    simp only [Action.take, Action.put, TokenSource.map_of_error _ same, outcome]
    exact .refl kept
  | cons c rest =>
    have same : onCursor Cursor.next lexer = .ok c { lexer with cursor := lexer.cursor.skip 1 } := by
      simp only [onCursor, Cursor.next, ahead]
    simp only [Action.take, Action.put, TokenSource.map_of_ok _ same, outcome]
    exact keeps_skip kept 1

/-- A fixed spelling that is read by itself was ahead. -/
theorem keeps_readSymbol (kept : lexer.Kept text start) :
    lexer.Keeps text start (Action.readSymbol.take lexer).1.given (Action.readSymbol.take lexer).2 := by
  cases found : symbol? lexer.cursor.ahead with
  | none =>
    simp only [Action.take, Action.put, Cursor.readSymbol, found]
    exact .refl kept
  | some spelling =>
    obtain ⟨front, kind⟩ := spelling
    have leads := isPrefix_of_symbol? found
    have spelled := spelled?_of_symbol? found
    have nonempty : front ≠ [] := by
      rintro rfl
      cases spelled
    have reads := kept.cursor.reads (Nat.le_refl _) (by simp) (.symbol leads spelled) nonempty leads
    have keeps := kept.keeps_cursor (kept.cursor.skip front.length) reads.tokensBetween
    simp only [Action.take, Action.put, Cursor.readSymbol, found]
    exact keeps

/-- Reading a token past the one that is shown leaves that in place. -/
theorem keeps_nextToken (kept : lexer.Kept text start) :
    lexer.Keeps text start (Action.nextToken.take lexer).1.given (Action.nextToken.take lexer).2 := by
  have next := lexer.cursor.next_nextToken
  cases found : lexer.cursor.nextToken with
  | error fault cursor =>
    rw [found] at next
    obtain ⟨moved, onward, -⟩ := next.keeps kept.cursor
    have same : onCursor Cursor.nextToken lexer = .error fault { lexer with cursor } := by
      simp only [onCursor, found]
    have keeps : lexer.Keeps text start [] { lexer with cursor } := kept.keeps_cursor moved (.nil onward)
    simp only [Action.take, Action.put, TokenSource.map_of_error _ same, outcome]
    exact keeps
  | ok shown cursor =>
    rw [found] at next
    obtain ⟨moved, onward, reads⟩ := next.keeps kept.cursor
    have same : onCursor Cursor.nextToken lexer = .ok shown { lexer with cursor } := by
      simp only [onCursor, found]
    have read : TokensBetween text start lexer.cursor.index shown.toList cursor.index := by
      cases shown with
      | none => exact .nil onward
      | some token => exact (reads token rfl).tokensBetween
    have keeps : lexer.Keeps text start shown.toList { lexer with cursor } := kept.keeps_cursor moved read
    simp only [Action.take, Action.put, TokenSource.map_of_ok _ same, outcome]
    exact keeps

theorem Action.keeps (kept : lexer.Kept text start) (action : Action) :
    lexer.Keeps text start (action.take lexer).1.given (action.take lexer).2 := by
  cases action with
  | query asked => exact keeps_query kept asked
  | collect => exact keeps_collectUpTo kept _
  | advance => exact keeps_advance kept
  | peekChar distance => exact .refl kept
  | skipSpace => exact keeps_skip kept _
  | readName => exact keeps_skip kept _
  | readSymbol => exact keeps_readSymbol kept
  | nextToken => exact keeps_nextToken kept

/-- A run of a lexer keeps its place in every state, and never goes back. -/
theorem Kept.run (kept : lexer.Kept text start) (actions : List Action) :
    (∀ step ∈ dialogue Action.take actions lexer, lexer.cursor.index ≤ step.lexer.cursor.index ∧
        step.before.Kept text start ∧ step.before.Keeps text start step.given step.lexer) ∧
      ((dialogue Action.take actions lexer).map (·.lexer.cursor.index)).Pairwise (· ≤ ·) := by
  induction actions generalizing lexer with
  | nil => simp [dialogue]
  | cons action actions ih =>
    have keeps := action.keeps kept
    have met : (action.take lexer).1.before = lexer := rfl
    have left : (action.take lexer).1.lexer = (action.take lexer).2 := rfl
    simp only [dialogue]
    generalize action.take lexer = taken at keeps met left ⊢
    obtain ⟨every, ordered⟩ := ih keeps.kept
    constructor
    · intro step member
      rcases List.mem_cons.mp member with rfl | later
      · rw [left, met]
        exact ⟨keeps.onward, kept, keeps⟩
      · obtain ⟨onward, kept', keeps'⟩ := every step later
        exact ⟨Nat.le_trans keeps.onward onward, kept', keeps'⟩
    · refine List.pairwise_cons.mpr ⟨?_, ordered⟩
      intro index member
      obtain ⟨step, later, rfl⟩ := List.mem_map.mp member
      simp only [left]
      exact (every step later).1

theorem kept_ofText (source : Text) (start : Position) :
    (ofText source start).Kept source.toList start :=
  ⟨⟨rfl, rfl⟩, fun _ none => by cases none⟩

/-- Whatever is asked of a lexer, and whether or not it fails, its index stays in the text and never
decreases, and its place is the one that the line feeds in front of the index tell. Every token that
it hands over was read off the text before, and has the place at which it begins, told in the same
way. What it hands over or shows behind a step it had shown before the step, or else it read it in the
step, behind blanks from where it stood. -/
theorem places_kept (source : Text) (start : Position) (actions : List Action) :
    (∀ step ∈ dialogue Action.take actions (ofText source start),
        step.lexer.cursor.source = source.toList ∧
          step.lexer.cursor.index ≤ source.toList.length ∧
          start.Counts (source.toList.take step.lexer.cursor.index) step.lexer.cursor.position ∧
          (∀ token ∈ step.given, ∃ index spelling, spelling ≠ [] ∧
            index + spelling.length ≤ step.lexer.cursor.index ∧
            Begins (source.toList.drop index) spelling token.lexeme ∧
            start.Counts (source.toList.take index) token.position) ∧
          ∃ fresh,
            TokensBetween source.toList start step.before.cursor.index fresh step.lexer.cursor.index ∧
            step.given.Sublist (step.before.shown.toList ++ fresh) ∧
            step.lexer.shown.toList.Sublist (step.before.shown.toList ++ fresh)) ∧
      ((dialogue Action.take actions (ofText source start)).map (·.lexer.cursor.index)).Pairwise
        (· ≤ ·) := by
  obtain ⟨every, ordered⟩ := (kept_ofText source start).run actions
  refine ⟨fun step member => ?_, ordered⟩
  obtain ⟨-, before, keeps⟩ := every step member
  have kept := keeps.kept.cursor
  refine ⟨kept.source, kept.index_le, ?_, keeps.stands before, keeps.read⟩
  rw [kept.take_index, kept.position]
  exact start.counts_afterAll _

/-- Of two equal words the second is read behind the first. Behind both, a quotation that is left open in
the next line fails at the end of the text. -/
theorem places_kept_behind_open_quotation :
    let text : List CodePoint := [scalar 'a', scalar ' ', scalar 'a', scalar '\n', scalar '\x22']
    let word : Token := ⟨.identifier, .text "a", ⟨1, 3⟩, none⟩
    ∃ first second failed,
      dialogue Action.take [.query .next, .query .next, .query .next] (ofText "a a\n\x22" ⟨1, 1⟩) =
          [first, second, failed] ∧
        second.given = [word] ∧
        (∃ fresh, TokensBetween text ⟨1, 1⟩ 1 fresh 3 ∧ [word].Sublist fresh) ∧
        failed.answer.isOk = false ∧ failed.lexer.cursor.index = 5 ∧
        Position.Counts ⟨1, 1⟩ text failed.lexer.cursor.position := by
  intro text word
  obtain ⟨kept, -⟩ := places_kept "a a\n\x22" ⟨1, 1⟩ [.query .next, .query .next, .query .next]
  obtain ⟨-, -, -, -, fresh, read, given, -⟩ := kept _ (.tail _ (.head _))
  obtain ⟨-, -, counts, -⟩ := kept _ (.tail _ (.tail _ (.head _)))
  exact ⟨_, _, _, rfl, rfl, ⟨fresh, read, given⟩, rfl, rfl, counts⟩

end Lexer

end Upkeep

end StyleExpr
