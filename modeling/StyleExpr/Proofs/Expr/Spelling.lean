import StyleExpr.Proofs.Lexeme.Image

/-! Texts that spell lexemes, whatever break comes behind them: the signs and words that are written in
front of operands and between them. -/

namespace StyleExpr

open Lexeme Text

/-- The text stands for the lexemes, behind which any break may come. -/
def Spells (text : List CodePoint) (lexemes : List Lexeme) : Prop :=
  ∀ rest others, Breaks rest → Lexes rest others → Lexes (text ++ rest) (lexemes ++ others)

section Lexemes

variable {front text rest : List CodePoint} {lexeme : Lexeme} {lexemes others : List Lexeme} {c : CodePoint}

theorem spells_lexeme (reads : ∀ rest, Breaks rest → Reads front rest lexeme) :
    Spells front [lexeme] :=
  fun rest _ breaks lexes => .lexeme (reads rest breaks) lexes

theorem lexes_single {kind : TokenKind} (lexes : Lexes rest others) (sign : c ∈ signs)
    (spelled : spelled? [c] = some kind) (alone : ∀ d ∈ rest.head?, spelled? [c, d] = none) :
    Lexes (c :: rest) (⟨kind, .text (Text.ofList [c]), none⟩ :: others) :=
  .lexeme (reads_single sign spelled alone) lexes

/-- Only few signs begin a spelling of two characters. -/
theorem spelled?_pair {d : CodePoint}
    (single : c ∈ [scalar '(', scalar ')', scalar ',', scalar '-', scalar '/', scalar '%']) :
    spelled? [c, d] = none := by
  simp only [List.mem_cons, List.not_mem_nil, or_false] at single
  rcases single with rfl | rfl | rfl | rfl | rfl | rfl <;> rfl

def openLexeme : Lexeme := ⟨.openParen, .text "(", none⟩

def closeLexeme : Lexeme := ⟨.closeParen, .text ")", none⟩

theorem lexes_open (lexes : Lexes rest others) : Lexes (scalar '(' :: rest) (openLexeme :: others) :=
  lexes_single lexes (by decide) rfl fun _ _ => spelled?_pair (by decide)

theorem lexes_close (lexes : Lexes rest others) : Lexes (scalar ')' :: rest) (closeLexeme :: others) :=
  lexes_single lexes (by decide) rfl fun _ _ => spelled?_pair (by decide)

def commaLexeme : Lexeme := ⟨.comma, .text ",", none⟩

theorem lexes_comma (lexes : Lexes rest others) :
    Lexes (scalar ',' :: scalar ' ' :: rest) (commaLexeme :: others) :=
  lexes_single (.blank rfl lexes) (by decide) rfl fun _ _ => spelled?_pair (by decide)

theorem lexes_spaced (reads : Reads front (scalar ' ' :: rest) lexeme) (lexes : Lexes rest others) :
    Lexes (scalar ' ' :: (front ++ scalar ' ' :: rest)) (lexeme :: others) :=
  .blank rfl (.lexeme reads (.blank rfl lexes))

theorem isName_of_letters (nonempty : text ≠ []) (letters : text.all isLetter = true) :
    IsName text := by
  have each := List.all_eq_true.mp letters
  obtain ⟨c, text, rfl⟩ := List.exists_cons_of_ne_nil nonempty
  have start (c : CodePoint) (letter : isLetter c = true) : startsName c = true := by
    simp [startsName, letter]
  constructor
  · exact .word nonempty fun c member => isWord_of_startsName (start c (each c member))
  · exact start c (each c (List.mem_cons_self ..))

theorem Lexeme.Breaks.ends_name (breaks : Breaks rest) :
    ∀ c ∈ rest.head?, isWord c = false ∧ c ≠ scalar '-' := by
  intro c next
  refine ⟨breaks.none_of (by decide) c next, ?_⟩
  rintro rfl
  exact absurd (breaks (scalar '-') next) (by decide)

theorem reads_word {kind : TokenKind} (letters : text.all isLetter = true)
    (keyword : spelled? text = some kind) (breaks : Breaks rest) :
    Reads text rest ⟨kind, .text (Text.ofList text), none⟩ := by
  have nonempty : text ≠ [] := by
    rintro rfl
    cases keyword
  rw [← ofName_keyword keyword]
  exact reads_name (isName_of_letters nonempty letters) breaks.ends_name

end Lexemes

def infixLexemes : Operator → List Lexeme
  | .comma => [commaLexeme]
  | .concat => []
  | .or => [⟨.or, .text "or", none⟩]
  | .and => [⟨.and, .text "and", none⟩]
  | .equal => [⟨.equal, .text "==", none⟩]
  | .notEqual => [⟨.notEqual, .text "!=", none⟩]
  | .greater => [⟨.greater, .text ">", none⟩]
  | .greaterEqual => [⟨.greaterEqual, .text ">=", none⟩]
  | .less => [⟨.less, .text "<", none⟩]
  | .lessEqual => [⟨.lessEqual, .text "<=", none⟩]
  | .plus => [⟨.plus, .text "+", none⟩]
  | .minus => [⟨.minus, .text "-", none⟩]
  | .times => [⟨.times, .text "*", none⟩]
  | .divide => [⟨.divide, .text "/", none⟩]
  | .modulo => [⟨.modulo, .text "%", none⟩]
  | .not => [⟨.not, .text "not", none⟩]

theorem infix_spelled {operator : Operator} (infixed : operator ≠ .not) :
    ∃ text, Canonical.infixOf? operator = some (Text.ofList text) ∧
      ∀ rest others, Lexes rest others →
        Breaks (text ++ rest) ∧ Lexes (text ++ rest) (infixLexemes operator ++ others) := by
  have single {c : CodePoint} {kind : TokenKind} (sign : c ∈ signs) (spelled : spelled? [c] = some kind)
      (alone : spelled? [c, scalar ' '] = none) :
      ∀ rest others, Lexes rest others → Breaks ([scalar ' ', c, scalar ' '] ++ rest) ∧
        Lexes ([scalar ' ', c, scalar ' '] ++ rest) (⟨kind, .text (Text.ofList [c]), none⟩ :: others) := by
    intro rest others lexes
    refine ⟨breaks_cons (by decide), lexes_spaced (reads_single sign spelled ?_) lexes⟩
    rintro d ⟨⟩
    exact alone
  have double {c d : CodePoint} {kind : TokenKind} (sign : c ∈ signs)
      (spelled : spelled? [c, d] = some kind) (unnamed : startsName d = false) :
      ∀ rest others, Lexes rest others → Breaks ([scalar ' ', c, d, scalar ' '] ++ rest) ∧
        Lexes ([scalar ' ', c, d, scalar ' '] ++ rest) (⟨kind, .text (Text.ofList [c, d]), none⟩ :: others) :=
    fun rest others lexes =>
      ⟨breaks_cons (by decide), lexes_spaced (reads_double sign spelled unnamed) lexes⟩
  cases operator with
  | comma => exact ⟨[',', ' '], rfl, fun _ _ lexes => ⟨breaks_cons (by decide), lexes_comma lexes⟩⟩
  | concat => exact ⟨[scalar ' '], rfl, fun _ _ lexes => ⟨breaks_cons (by decide), .blank rfl lexes⟩⟩
  | or =>
    refine ⟨[' ', 'o', 'r', ' '], rfl, fun rest _ lexes => ⟨breaks_cons (by decide), ?_⟩⟩
    have reads : Reads ['o', 'r'] (' ' :: rest) ⟨.or, .text "or", none⟩ :=
      reads_word (by decide) rfl (breaks_cons (by decide))
    exact lexes_spaced reads lexes
  | and =>
    refine ⟨[' ', 'a', 'n', 'd', ' '], rfl, fun rest _ lexes => ⟨breaks_cons (by decide), ?_⟩⟩
    have reads : Reads ['a', 'n', 'd'] (' ' :: rest) ⟨.and, .text "and", none⟩ :=
      reads_word (by decide) rfl (breaks_cons (by decide))
    exact lexes_spaced reads lexes
  | equal => exact ⟨_, rfl, double (by decide) rfl (by decide)⟩
  | notEqual => exact ⟨_, rfl, double (by decide) rfl (by decide)⟩
  | greater => exact ⟨_, rfl, single (by decide) rfl rfl⟩
  | greaterEqual => exact ⟨_, rfl, double (by decide) rfl (by decide)⟩
  | less => exact ⟨_, rfl, single (by decide) rfl rfl⟩
  | lessEqual => exact ⟨_, rfl, double (by decide) rfl (by decide)⟩
  | plus => exact ⟨_, rfl, single (by decide) rfl rfl⟩
  | minus => exact ⟨_, rfl, single (by decide) rfl rfl⟩
  | times => exact ⟨_, rfl, single (by decide) rfl rfl⟩
  | divide => exact ⟨_, rfl, single (by decide) rfl rfl⟩
  | modulo => exact ⟨_, rfl, single (by decide) rfl rfl⟩
  | not => exact absurd rfl infixed

def prefixLexeme : Operator → Lexeme
  | .minus => ⟨.minus, .text "-", none⟩
  | .divide => ⟨.divide, .text "/", none⟩
  | _ => ⟨.not, .text "not", none⟩

theorem prefix_spelled {operator : Operator} (prefixed : operator ∈ [.minus, .divide, .not]) :
    ∃ text, Canonical.prefixOf? operator = some (Text.ofList text) ∧
      ∀ rest others, Lexes rest others →
        Lexes (text ++ rest) (prefixLexeme operator :: others) := by
  have single {c : CodePoint} {kind : TokenKind} (sign : c ∈ signs) (spelled : spelled? [c] = some kind)
      (lonely : c ∈ [scalar '(', scalar ')', scalar ',', scalar '-', scalar '/', scalar '%']) :
      ∀ rest others, Lexes rest others →
        Lexes ([c] ++ rest) (⟨kind, .text (Text.ofList [c]), none⟩ :: others) :=
    fun rest others lexes => lexes_single lexes sign spelled fun _ _ => spelled?_pair lonely
  simp only [List.mem_cons, List.not_mem_nil, or_false] at prefixed
  rcases prefixed with rfl | rfl | rfl
  · exact ⟨_, rfl, single (by decide) rfl (by decide)⟩
  · exact ⟨_, rfl, single (by decide) rfl (by decide)⟩
  · refine ⟨[scalar 'n', scalar 'o', scalar 't', scalar ' '], rfl, fun rest others lexes => ?_⟩
    have reads : Reads ['n', 'o', 't'] (' ' :: rest) ⟨.not, .text "not", none⟩ :=
      reads_word (by decide) rfl (breaks_cons (by decide))
    have lexed : Lexes ([scalar 'n', scalar 'o', scalar 't'] ++ scalar ' ' :: rest) _ :=
      .lexeme reads (.blank rfl lexes)
    exact lexed

end StyleExpr
