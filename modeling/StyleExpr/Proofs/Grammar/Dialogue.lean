import StyleExpr.Proofs.Grammar.Follow
import StyleExpr.Proofs.Source.Drain

/-! What a host can ask of a token source and of a parser on it. Answers depend on the feed of the
source alone, so a lexer and the tokens that its text was read into cannot be told apart. -/

namespace StyleExpr

inductive Reply where
  | token (token : Option Token)
  | truth (truth : Bool)
  | number (number : Int)
  | kind (kind : Option TokenKind)
  | expr (expr : Option Expr)
  | exprs (exprs : List Expr)

inductive TokenSource.Query where
  | peek | next | done | line | column

inductive Parser.Request where
  | query (query : TokenSource.Query)
  | expression
  | level (level : Level)
  | require (level : Level)
  | arguments
  | take? (kinds : List TokenKind)
  | take (kinds : List TokenKind)
  | nextKind

section Asking

variable {σ : Type} [TokenSource σ]

def TokenSource.Query.ask : TokenSource.Query → EStateM Fault σ Reply
  | peek => .token <$> TokenSource.peek
  | next => .token <$> TokenSource.next
  | done => .truth <$> TokenSource.isDone
  | line => (fun place => .number place.line) <$> TokenSource.position
  | column => (fun place => .number place.column) <$> TokenSource.position

def Parser.Request.serve : Parser.Request → Parse σ Reply
  | query asked => Parser.onSource asked.ask
  | expression => (fun expr => .expr (some expr)) <$> Parser.expression
  | level start => .expr <$> start.parse
  | require start => (fun expr => .expr (some expr)) <$> Parser.require start.parse
  | arguments => .exprs <$> Parser.arguments
  | take? kinds => .token <$> Parser.take? kinds
  | take kinds => (fun token => .token (some token)) <$> Parser.take kinds
  | nextKind => .kind <$> Parser.nextKind

/-- A parser with the bound on repetitions fixed in advance. -/
def Parser.Request.serveWithin (bound : Nat) : Parser.Request → Parse σ Reply
  | expression =>
    (fun expr => .expr (some expr)) <$> Parser.require (Level.expression.parseWithin bound)
  | level start => .expr <$> start.parseWithin bound
  | require start => (fun expr => .expr (some expr)) <$> Parser.require (start.parseWithin bound)
  | arguments => .exprs <$> Grammar.arguments bound (Level.concatenation.parseWithin bound)
  | other => other.serve

theorem Parser.Request.serve_eq (request : Parser.Request) (parser : Parser σ) :
    request.serve parser = request.serveWithin (TokenSource.bound parser.source + 1) parser := by
  cases request with
  | expression => exact Parser.map_of_same Pairing.expression_run
  | require start => exact Parser.map_of_same (Parser.bind_of_same rfl)
  | level | arguments => exact Parser.map_of_same rfl
  | query | take? | take | nextKind => rfl

end Asking

def outcome {ε σ α : Type} : EStateM.Result ε σ α → Except ε α × σ
  | .ok result after => (.ok result, after)
  | .error fault after => (.error fault, after)

def TokenSource.Query.put {σ : Type} [TokenSource σ] (query : TokenSource.Query) (source : σ) :
    Except Fault Reply × σ :=
  outcome (query.ask source)

/-- The answer of a parser, with all the warnings that it has given by then. -/
def Parser.Request.put {σ : Type} [TokenSource σ] (request : Parser.Request) (parser : Parser σ) :
    (Except Fault Reply × List Text) × Parser σ :=
  let (reply, after) := outcome (request.serve parser)
  ((reply, after.warnings), after)

/-- The answers to a series of questions. Each is put to the state that the one before it left, were
it by a fault. -/
def dialogue {ι α σ : Type} (put : ι → σ → α × σ) : List ι → σ → List α
  | [], _ => []
  | question :: rest, state => (put question state).1 :: dialogue put rest (put question state).2

/-- States that answer alike, and go on to such states, lead the same dialogues. -/
theorem dialogue_eq {ι α σ τ : Type} {put : ι → σ → α × σ} {put' : ι → τ → α × τ}
    {related : σ → τ → Prop} (alike : ∀ question state state', related state state' →
      (put question state).1 = (put' question state').1 ∧
        related (put question state).2 (put' question state').2)
    (questions : List ι) {state : σ} {state' : τ} (start : related state state') :
    dialogue put questions state = dialogue put' questions state' := by
  induction questions generalizing state state' with
  | nil => rfl
  | cons question rest ih =>
    obtain ⟨same, still⟩ := alike question state state' start
    rw [dialogue, dialogue, same, ih still]

namespace Pairing

/-- A lawful source follows the feed of its tokens, and still does after a fault if its end is known. -/
def unbroken (τ : Type) [TokenSource τ] [LawfulSource τ] : Pairing τ where
  place := id
  limit := 0
  joined := fun feed source =>
    Feeds source feed.tokens feed.ending ∧ ∃ place, feed.ending = .ok place
  broken := fun _ _ => False
  look_token := by
    rintro token tokens ending source ⟨feeds, placed⟩
    obtain ⟨after, looked, still, taken⟩ := (ofLawful τ).look_token feeds
    exact ⟨after, looked, ⟨still, placed⟩, fun kept => ⟨taken kept, placed⟩⟩
  look_end := by
    rintro place source ⟨feeds, placed⟩
    obtain ⟨after, looked, still, same⟩ := (ofLawful τ).look_end feeds
    exact ⟨after, looked, ⟨still, placed⟩, same⟩
  look_fault := by
    rintro fault source ⟨-, place, placed⟩
    cases placed

variable {τ : Type} [TokenSource τ] {pairing : Pairing τ} {size bound bound' : Nat}
variable {α β γ δ : Type} {cost : α → Nat} {image : α → β} {left : Parse Feed α} {right : Parse τ β}

theorem Paired.map {wrap : α → γ} {wrap' : β → δ} {image' : γ → δ}
    (paired : pairing.Paired size cost image left right)
    (wrapped : ∀ result, image' (wrap result) = wrap' (image result)) :
    pairing.Paired size (fun _ => 0) image' (wrap <$> left) (wrap' <$> right) := by
  rw [map_eq_pure_bind, map_eq_pure_bind]
  refine paired.bind fun result _ => ?_
  rw [← wrapped result]
  exact .pure (Nat.zero_sub _)

theorem onSource_map {σ : Type} (wrap : α → γ) (action : EStateM Fault σ α) :
    Parser.onSource (wrap <$> action) = wrap <$> Parser.onSource action := by
  funext parser
  simp only [Parser.onSource, Functor.map, EStateM.map]
  cases action parser.source <;> rfl

theorem outcome_onSource {σ : Type} (action : EStateM Fault σ α) (source : σ)
    (warnings : List Text) :
    outcome (Parser.onSource action ⟨source, warnings⟩) =
      ((outcome (action source)).1, ⟨(outcome (action source)).2, warnings⟩) := by
  unfold Parser.onSource
  cases action source <;> rfl

theorem onSource_next {σ : Type} [TokenSource σ] :
    (Parser.onSource TokenSource.next : Parse σ (Option Token)) =
      Option.map Prod.fst <$> Parser.accept fun _ => some () := by
  funext ⟨source, warnings⟩
  cases looked : TokenSource.peek source with
  | error fault after =>
    rw [Parser.onSource_of_error (TokenSource.next_of_fault looked), map_eq_pure_bind,
      Parser.bind_of_error (Parser.accept_of_fault looked)]
  | ok token after =>
    cases token with
    | none =>
      rw [Parser.onSource_of_ok (TokenSource.next_of_end looked), map_eq_pure_bind,
        Parser.bind_of_ok (Parser.accept_of_end looked)]
      rfl
    | some token =>
      have accepted : Parser.accept (fun _ => some ()) ⟨source, warnings⟩ = .ok (some (token, ())) _ :=
        Parser.accept_of_some looked rfl
      rw [Parser.onSource_of_ok (TokenSource.next_of_token looked), map_eq_pure_bind,
        Parser.bind_of_ok accepted]
      rfl

theorem onSource_isDone {σ : Type} [TokenSource σ] :
    (Parser.onSource TokenSource.isDone : Parse σ Bool) = Option.isNone <$> Parser.peek := by
  rw [Parser.peek, ← onSource_map, TokenSource.isDone, map_eq_pure_bind]

@[simp] theorem expr_moved_id : Expr.moved id = id :=
  funext Expr.moved_id

section Unbroken

variable {σ : Type} [TokenSource σ] [LawfulSource σ]

@[simp] theorem unbroken_place : (unbroken σ).place = id := rfl

theorem query_paired (query : TokenSource.Query) :
    (unbroken σ).Paired size (fun _ => 0) id (Parser.onSource query.ask)
      (Parser.onSource query.ask) := by
  cases query with
  | peek =>
    simp only [TokenSource.Query.ask, onSource_map]
    exact Paired.peek.map fun token => by cases token <;> rfl
  | next =>
    have taken : (unbroken σ).Paired size (fun _ => 0) id
        (Option.map Prod.fst <$> Parser.accept fun _ => some ())
        (Option.map Prod.fst <$> Parser.accept fun _ => some ()) :=
      (Paired.accept _).map fun taken => by cases taken <;> rfl
    simp only [TokenSource.Query.ask, onSource_map, onSource_next]
    exact taken.map fun token => rfl
  | done =>
    have done : (unbroken σ).Paired size (fun _ => 0) id (Option.isNone <$> Parser.peek)
        (Option.isNone <$> Parser.peek) :=
      Paired.peek.map fun token => by simp
    simp only [TokenSource.Query.ask, onSource_map, onSource_isDone]
    exact done.map fun truth => rfl
  | line | column =>
    simp only [TokenSource.Query.ask, onSource_map]
    exact Paired.position.map fun place => rfl

theorem request_paired (enough : size < bound) (enough' : size < bound')
    (request : Parser.Request) :
    (unbroken σ).Paired size (fun _ => 0) id (request.serveWithin bound)
      (request.serveWithin bound') := by
  have reads := (unbroken σ).parseWithin_alike enough enough'
  cases request with
  | query asked => exact query_paired asked
  | expression => exact (reads .expression).require.map fun expr => by simp
  | level start => exact (reads start).map fun expr => by simp
  | require start => exact (reads start).require.map fun expr => by simp
  | arguments =>
    exact (arguments_alike (reads .concatenation) enough enough').map fun exprs => by simp
  | take? kinds => exact (Paired.take? kinds).map fun token => by cases token <;> rfl
  | take kinds => exact (Paired.take kinds).map fun token => rfl
  | nextKind => exact Paired.nextKind.map fun kind => rfl

/-- Two parsers in front of the same tokens, with the same warnings given. -/
def SameAhead (fed : Parser Feed) (parser : Parser σ) : Prop :=
  (unbroken σ).joined fed.source parser.source ∧ fed.warnings = parser.warnings

theorem Paired.outcome_eq {cost : α → Nat} {left : Parse Feed α} {right : Parse σ α}
    {fed : Parser Feed} {parser : Parser σ}
    (paired : (unbroken σ).Paired fed.source.tokens.length cost id left right)
    (same : SameAhead fed parser) :
    (outcome (left fed)).1 = (outcome (right parser)).1 ∧
      SameAhead (outcome (left fed)).2 (outcome (right parser)).2 := by
  obtain ⟨feed, warnings⟩ := fed
  obtain ⟨source, warned⟩ := parser
  obtain ⟨joined, rfl⟩ := same
  cases ran : left ⟨feed, warnings⟩ with
  | ok result after =>
    obtain ⟨behind, run, still⟩ := paired.ok (Nat.le_refl _) ran joined (Nat.zero_le _)
    rw [run]
    exact ⟨rfl, still, rfl⟩
  | error fault after =>
    obtain ⟨behind, run, still⟩ := paired.error (Nat.le_refl _) ran joined (Nat.zero_le _)
    rw [run, unbroken_place, Fault.moved_id]
    exact ⟨rfl, still.resolve_right (fun broken => broken.2), rfl⟩

theorem request_outcome (request : Parser.Request) {fed : Parser Feed} {parser : Parser σ}
    (same : SameAhead fed parser) :
    (request.put fed).1 = (request.put parser).1 ∧
      SameAhead (request.put fed).2 (request.put parser).2 := by
  have enough : fed.source.tokens.length < TokenSource.bound parser.source + 1 :=
    Nat.lt_succ_of_le same.1.1.length_le
  have paired : (unbroken σ).Paired fed.source.tokens.length _ _ _ _ :=
    request_paired (Nat.lt_succ_self fed.source.tokens.length) enough request
  obtain ⟨replied, ahead⟩ := paired.outcome_eq same
  simp only [Parser.Request.put, Parser.Request.serve_eq]
  exact ⟨Prod.ext replied ahead.2, ahead⟩

theorem query_outcome (query : TokenSource.Query) {feed : Feed} {source : σ}
    (joined : (unbroken σ).joined feed source) :
    (query.put feed).1 = (query.put source).1 ∧
      (unbroken σ).joined (query.put feed).2 (query.put source).2 := by
  have same : SameAhead (⟨feed, []⟩ : Parser Feed) (⟨source, []⟩ : Parser σ) := ⟨joined, rfl⟩
  have paired : (unbroken σ).Paired feed.tokens.length _ _ _ _ := query_paired query
  obtain ⟨replied, ahead⟩ := paired.outcome_eq same
  rw [outcome_onSource, outcome_onSource] at replied ahead
  exact ⟨replied, ahead.1⟩

end Unbroken

end Pairing

section Source

variable {σ : Type} [TokenSource σ] [LawfulSource σ] {source : σ} {tokens : List Token}
variable {place : Position}

theorem Feeds.queries_eq (feeds : Feeds source tokens (.ok place))
    (queries : List TokenSource.Query) :
    dialogue TokenSource.Query.put queries (⟨tokens, .ok place⟩ : Feed) =
      dialogue TokenSource.Query.put queries source := by
  have joined : (Pairing.unbroken σ).joined ⟨tokens, .ok place⟩ source := ⟨feeds, place, rfl⟩
  exact dialogue_eq (fun query _ _ => Pairing.query_outcome query) queries joined

theorem Feeds.requests_eq (feeds : Feeds source tokens (.ok place)) (requests : List Parser.Request) :
    dialogue Parser.Request.put requests (Parser.ofSource (⟨tokens, .ok place⟩ : Feed)) =
      dialogue Parser.Request.put requests (Parser.ofSource source) := by
  have same : Pairing.SameAhead (Parser.ofSource ⟨tokens, .ok place⟩)
      (Parser.ofSource source) :=
    ⟨⟨feeds, place, rfl⟩, rfl⟩
  exact dialogue_eq (fun request _ _ => Pairing.request_outcome request) requests same

end Source

/-- A lexer over a text cannot be told from the stored tokens of the text, if these are given the place
behind it: both lead the same dialogues, alone and under a parser. -/
theorem storedTokens_answer_as_lexer {text : Text} {start : Position} {tokens : List Token}
    (lexed : tokenize text start = .ok tokens) :
    ∃ after stored, TokenSource.drain (Lexer.ofText text start) = .ok tokens after ∧
      after.cursor.position = start.afterAll text.toList ∧
      StoredTokens.ofList tokens (some after.cursor.position.line)
        (some after.cursor.position.column) = .ok stored ∧
      (∀ queries, dialogue TokenSource.Query.put queries (Lexer.ofText text start) =
        dialogue TokenSource.Query.put queries stored) ∧
      ∀ requests, dialogue Parser.Request.put requests (Parser.ofSource (Lexer.ofText text start)) =
        dialogue Parser.Request.put requests (Parser.ofSource stored) := by
  obtain ⟨after, drained⟩ := tokenize_eq_ok_iff.mp lexed
  have feeds := feeds_of_drain drained
  have stored := StoredTokens.feeds 0 tokens after.cursor.position
  refine ⟨after, _, drained, feeds.place_eq, rfl, fun queries => ?_, fun requests => ?_⟩
  · exact (feeds.queries_eq queries).symm.trans (stored.queries_eq queries)
  · exact (feeds.requests_eq requests).symm.trans (stored.requests_eq requests)

/-- Of `a)`, a word that is reported and the parenthesis behind it. -/
theorem storedTokens_answer_as_lexer_word :
    let word : Token := ⟨.identifier, .text "a", ⟨1, 1⟩, none⟩
    let closer : Token := ⟨.closeParen, .text ")", ⟨1, 2⟩, none⟩
    tokenize "a)" ⟨1, 1⟩ = .ok [word, closer] ∧
      StoredTokens.ofList [word, closer] (some 1) (some 3) = .ok (.endingAt [word, closer] ⟨1, 3⟩) ∧
      ∀ requests, dialogue Parser.Request.put requests (Parser.ofSource (Lexer.ofText "a)" ⟨1, 1⟩)) =
        dialogue Parser.Request.put requests
          (Parser.ofSource (StoredTokens.endingAt [word, closer] ⟨1, 3⟩)) := by
  intro word closer
  have lexed : tokenize "a)" ⟨1, 1⟩ = .ok [word, closer] := rfl
  obtain ⟨after, stored, -, placed, built, -, requests⟩ := storedTokens_answer_as_lexer lexed
  have ended : after.cursor.position = ⟨1, 3⟩ := placed
  rw [ended] at built
  cases built
  exact ⟨lexed, rfl, requests⟩

end StyleExpr
