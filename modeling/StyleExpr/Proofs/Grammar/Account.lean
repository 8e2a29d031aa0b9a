import StyleExpr.Proofs.Grammar.Outcome
import StyleExpr.Proofs.Grammar.Phrase

/-! What every level does on a feed. It reads a phrase of the level that nothing behind it goes on
with, or it finds no first token of one and takes nothing, or it fails behind tokens that could still
have become a phrase. -/

namespace StyleExpr

open Outcome Grammar

/-- The warnings for the words of `front` that no opening parenthesis follows. -/
def bareWords : List Token → List Token → List Text
  | [], _ => []
  | token :: front, rest =>
    (if token.kind = .identifier ∧ opens (front ++ rest) = false then
      [implicitStringWarning token.value] else []) ++ bareWords front rest

theorem bareWords_append (first second rest : List Token) :
    bareWords (first ++ second) rest = bareWords first (second ++ rest) ++ bareWords second rest := by
  induction first with
  | nil => rfl
  | cons token first ih =>
    simp only [List.cons_append, bareWords, ih, List.append_assoc]

theorem bareWords_other {token : Token} (other : token.kind ≠ .identifier) (rest : List Token) :
    bareWords [token] rest = [] := by
  simp [bareWords, other]

/-- Tokens that more tokens make a phrase of the level, whatever follows it. -/
def Viable (level : Level) (front : List Token) : Prop :=
  ∀ opened, ∃ more expr, Phrase level opened (front ++ more) expr

/-- An expression is missing, or the parenthesis that closes a group or a call. -/
def Complaint (ending : Except Fault Position) (rest : List Token) (fault : Fault) : Prop :=
  Missing .expectedExpression ending rest fault ∨
    Missing (.expectedToken [.closeParen]) ending rest fault

/-- A phrase with nothing behind it that goes on with it, or no token that begins one. -/
def Level.Reads (level : Level) (front rest : List Token) (said : List Text) :
    Option Expr → Prop
  | some expr => Phrase level (opens rest) front expr ∧ level.Stops rest ∧
    said = bareWords front rest
  | none => front = [] ∧ said = [] ∧ ∀ token ∈ rest.head?, level.starts token.kind = false

/-- The tokens taken were the beginning of a phrase, and a part of it is missing. -/
def Level.Fails (level : Level) (ending : Except Fault Position) (front rest : List Token)
    (said : List Text) (fault : Fault) : Prop :=
  front ≠ [] ∧ Viable level front ∧ Complaint ending rest fault ∧ said = bareWords front rest

/-- With `front` read before, the tokens taken complete a phrase of the level. -/
def Level.Completes (level : Level) (front more rest : List Token) (said : List Text)
    (expr : Expr) : Prop :=
  Phrase level (opens rest) (front ++ more) expr ∧ level.Stops rest ∧ said = bareWords more rest

/-- With `front` read before, the tokens taken were the beginning of a phrase. -/
def Level.BreaksOff (level : Level) (ending : Except Fault Position)
    (front more rest : List Token) (said : List Text) (fault : Fault) : Prop :=
  Viable level (front ++ more) ∧ Complaint ending rest fault ∧ said = bareWords more rest

/-- A parser of the level reads as the grammar tells, on feeds of at most `size` tokens. -/
def Level.Accounts (level : Level) (ending : Except Fault Position) (size : Nat)
    (parse : Parse Feed (Option Expr)) : Prop :=
  ∀ tokens warnings, tokens.length ≤ size →
    Outcome ending tokens warnings level.Reads (level.Fails ending)
      (parse ⟨⟨tokens, ending⟩, warnings⟩)

variable {ending : Except Fault Position} {size bound : Nat} {tokens : List Token}
variable {warnings : List Text} {level : Level} {parse : Parse Feed (Option Expr)}

theorem Level.Accounts.weaken {smaller : Nat} (accounts : level.Accounts ending size parse)
    (fewer : smaller ≤ size) : level.Accounts ending smaller parse :=
  fun tokens warnings small => accounts tokens warnings (Nat.le_trans small fewer)

/-- The token that stands for any missing expression. -/
private def zeroToken : Token :=
  ⟨.number, .int 0, default, none⟩

theorem viable_nil (level : Level) : Viable level [] :=
  fun opened => ⟨[zeroToken], _, .ofLiteral level opened rfl⟩

theorem Level.Accounts.require (accounts : level.Accounts ending size parse)
    (small : tokens.length ≤ size) :
    Outcome ending tokens warnings (level.Completes []) (level.BreaksOff ending [])
      (Parser.require parse ⟨⟨tokens, ending⟩, warnings⟩) := by
  refine (accounts tokens warnings small).bind ?_ fun _ _ _ _ _ fails => fails.2
  intro front rest said result _ reads
  cases result with
  | none =>
    obtain ⟨rfl, rfl, -⟩ := reads
    exact missing fun fault stated => ⟨viable_nil level, .inl stated, rfl⟩
  | some expr =>
    refine .pure ?_
    simp only [List.append_nil]
    exact reads

/-- What was taken in two goes was taken in one. -/
theorem join_outcome {front more rest : List Token} {said : List Text}
    {result : EStateM.Result Fault (Parser Feed) Expr}
    (outcome : Outcome ending rest warnings (level.Completes (front ++ more))
      (level.BreaksOff ending (front ++ more)) result)
    (spoken : said = bareWords more rest) :
    Outcome ending rest warnings
      (fun more' rest' said' => level.Completes front (more ++ more') rest' (said ++ said'))
      (fun more' rest' said' => level.BreaksOff ending front (more ++ more') rest' (said ++ said'))
      result := by
  subst spoken
  refine outcome.mono ?_ ?_
  · intro more' rest' said' expr split completes
    obtain ⟨phrase, stops, rfl⟩ := completes
    exact ⟨by rwa [← List.append_assoc], stops, by rw [split, bareWords_append]⟩
  · intro more' rest' said' fault split breaks
    obtain ⟨viable, complaint, rfl⟩ := breaks
    exact ⟨by rwa [← List.append_assoc], complaint, by rw [split, bareWords_append]⟩

/-- A level on its own tokens, or else the tighter level. -/
theorem Level.Reads.lift {front rest : List Token} {said : List Text} {result : Option Expr}
    (reads : level.tighter.Reads front rest said result)
    (refused : ∀ token ∈ (front ++ rest).head?, level.leads token.kind = false)
    (ended : ∀ token ∈ rest.head?, level.joins token.kind = false) :
    level.Reads front rest said result := by
  cases result with
  | none =>
    obtain ⟨rfl, rfl, absent⟩ := reads
    refine ⟨rfl, rfl, ?_⟩
    intro token next
    rw [starts_eq, refused token next, absent token next, Bool.or_self]
  | some expr =>
    obtain ⟨phrase, stops, said⟩ := reads
    refine ⟨.operand phrase, ?_, said⟩
    intro token next
    rw [continues_eq, ended token next, stops token next, Bool.or_self]

theorem Level.Fails.lift {front rest : List Token} {said : List Text} {fault : Fault}
    (fails : level.tighter.Fails ending front rest said fault) :
    level.Fails ending front rest said fault := by
  obtain ⟨some, viable, complaint, said⟩ := fails
  refine ⟨some, ?_, complaint, said⟩
  intro opened
  obtain ⟨more, expr, phrase⟩ := viable opened
  exact ⟨more, expr, .operand phrase⟩

/-- A level that took no token of its own does what the tighter level does. -/
theorem lift_outcome {result : EStateM.Result Fault (Parser Feed) (Option Expr)}
    (outcome : Outcome ending tokens warnings level.tighter.Reads (level.tighter.Fails ending) result)
    (refused : ∀ token ∈ tokens.head?, level.leads token.kind = false)
    (alone : ∀ kind, level.joins kind = false) :
    Outcome ending tokens warnings level.Reads (level.Fails ending) result := by
  refine outcome.mono ?_ fun _ _ _ _ _ fails => fails.lift
  intro front rest said result split reads
  exact reads.lift (split ▸ refused) fun token _ => alone token.kind

theorem literal_accounts : Level.literal.Accounts ending size Grammar.literal := by
  intro tokens warnings _
  refine (accept _).bind ?_ fun _ _ _ _ _ none => none.elim
  intro front rest said result _ accepted
  cases result with
  | none =>
    obtain ⟨rfl, rfl, refused⟩ := accepted
    refine .pure ⟨rfl, rfl, ?_⟩
    intro token next
    rw [Level.starts_literal, refused token next, Option.isSome_none]
  | some result =>
    obtain ⟨rfl, rfl, found⟩ := accepted
    refine .pure ⟨.literal found, .of_whole (by decide), (bareWords_other ?_ rest).symm⟩
    intro kind
    simp [kind, LiteralKind.ofToken?] at found

theorem reference_accounts : Level.reference.Accounts ending size Grammar.reference := by
  intro tokens warnings small
  refine (take? _).bind ?_ fun _ _ _ _ _ none => none.elim
  intro front rest said result split taken
  cases result with
  | none =>
    obtain ⟨rfl, rfl, refused⟩ := taken
    refine lift_outcome (literal_accounts rest _ (by simpa [split] using small)) ?_ ?_
    · intro token next
      simpa [Level.leads] using refused token next
    · intro kind
      cases kind <;> rfl
  | some token =>
    obtain ⟨rfl, rfl, member⟩ := taken
    have kind := List.mem_singleton.mp member
    exact .pure ⟨.reference kind, .of_whole (by decide),
      (bareWords_other (by simp [kind]) rest).symm⟩

theorem prefixLevel_accounts {operator : Operator} {kind : TokenKind}
    (operand : level.tighter.Accounts ending size parse)
    (found : level.sign? = some (operator, kind)) (enough : size < bound) :
    level.Accounts ending size (prefixLevel operator kind parse bound) := by
  induction bound generalizing size with
  | zero => omega
  | succ bound ih =>
    intro tokens warnings small
    refine (take? _).bind ?_ fun _ _ _ _ _ none => none.elim
    intro front rest said result split taken
    cases result with
    | none =>
      obtain ⟨rfl, rfl, refused⟩ := taken
      refine lift_outcome (operand rest _ (by simpa [split] using small)) ?_ (Level.joins_sign found)
      intro token next
      have other := refused token next
      rw [Level.leads_sign found]
      simpa [eq_comm] using other
    | some token =>
      obtain ⟨rfl, rfl, member⟩ := taken
      obtain rfl := List.mem_singleton.mp member
      have fewer : rest.length < size := by
        rw [split] at small
        simp at small
        omega
      have word := Level.plain_of_sign found
      have inner := ih (operand.weaken (Nat.sub_le size 1)) (by omega)
      refine (inner.require (by omega)).bind ?_ ?_
      · intro back rest' said' expr _ read
        obtain ⟨phrase, stops, rfl⟩ := read
        refine .pure ⟨?_, stops, ?_⟩
        · simpa using Phrase.sign found phrase
        · simp [bareWords, word]
      · intro back rest' said' fault _ fails
        obtain ⟨viable, complaint, rfl⟩ := fails
        refine ⟨by simp, ?_, complaint, by simp [bareWords, word]⟩
        intro opened
        obtain ⟨more, expr, phrase⟩ := viable opened
        exact ⟨more, _, by simpa using Phrase.sign found phrase⟩

/-- A level whose first operand is followed by a loop reads what the loop completes. -/
theorem loop_outcome {front rest : List Token} {said : List Text} {first : Expr}
    {loop : Parse Feed Expr} (phrase : Phrase level.tighter (opens rest) front first)
    (spoken : said = bareWords front rest)
    (outcome : Outcome ending rest warnings (level.Completes front) (level.BreaksOff ending front)
      (loop ⟨⟨rest, ending⟩, warnings⟩)) :
    Outcome ending rest warnings
      (fun more rest' said' => level.Reads (front ++ more) rest' (said ++ said'))
      (fun more rest' said' => level.Fails ending (front ++ more) rest' (said ++ said'))
      ((loop >>= fun expr => pure (some expr)) ⟨⟨rest, ending⟩, warnings⟩) := by
  have joint : Outcome ending rest warnings
      (fun more rest' said' => level.Completes [] (front ++ more) rest' (said ++ said'))
      (fun more rest' said' => level.BreaksOff ending [] (front ++ more) rest' (said ++ said'))
      (loop ⟨⟨rest, ending⟩, warnings⟩) := join_outcome outcome spoken
  refine joint.bind ?_ ?_
  · intro more rest' said' expr _ completes
    refine .pure ?_
    rw [List.append_nil, List.append_nil]
    exact completes
  · intro more rest' said' fault _ breaks
    exact ⟨List.append_ne_nil_of_left_ne_nil phrase.ne_nil more, breaks⟩

theorem bareWords_cons_other {token : Token} (other : token.kind ≠ .identifier)
    (front rest : List Token) : bareWords (token :: front) rest = bareWords front rest := by
  simp [bareWords, other]

theorem Level.Stops.of_operators {tokens : List Token} (joined : level.operators ≠ [])
    (stops : level.tighter.Stops tokens)
    (refused : ∀ token ∈ tokens.head?,
      (Operator.ofToken? token.kind).filter (· ∈ level.operators) = none) :
    level.Stops tokens := by
  intro token next
  have other := refused token next
  rw [continues_eq, stops token next, joins_operators joined, Bool.or_false]
  cases written : Operator.ofToken? token.kind with
  | none => rfl
  | some operator => simpa [written] using other

/-- The loop over the operators of a level goes on with the phrase `front` that was read so far. -/
theorem foldOperators_outcome {front : List Token} {first : Expr} (warnings : List Text)
    (operand : level.tighter.Accounts ending size parse) (joined : level.operators ≠ [])
    (enough : size < bound) (small : tokens.length ≤ size)
    (begun : Phrase level (opens tokens) front first) (stops : level.tighter.Stops tokens) :
    Outcome ending tokens warnings (level.Completes front) (level.BreaksOff ending front)
      (foldOperators parse level.operators bound first ⟨⟨tokens, ending⟩, warnings⟩) := by
  induction bound generalizing size tokens warnings front first with
  | zero => omega
  | succ bound ih =>
    refine (accept _).bind ?_ fun _ _ _ _ _ none => none.elim
    intro taken rest said result split accepted
    cases result with
    | none =>
      obtain ⟨rfl, rfl, refused⟩ := accepted
      obtain rfl : tokens = rest := split
      exact .pure ⟨by simpa using begun, stops.of_operators joined refused, rfl⟩
    | some result =>
      obtain ⟨token, operator⟩ := result
      obtain ⟨rfl, rfl, found⟩ := accepted
      obtain rfl : tokens = token :: rest := split
      simp only [Option.filter_eq_some_iff, decide_eq_true_eq] at found
      obtain ⟨written, member⟩ := found
      obtain ⟨word, unopened⟩ := Level.plain_of_operator written
      have opening : opens (token :: rest) = false := by
        rw [opens_cons, decide_eq_false_iff_not]
        exact unopened
      rw [opening] at begun
      have fewer : rest.length < size := small
      have inner := operand.weaken (Nat.sub_le size 1)
      refine (inner.require (by omega)).bind ?_ ?_
      · intro back rest' said' expr split' completes
        obtain ⟨phrase, stops', rfl⟩ := completes
        subst split'
        rw [List.length_append] at fewer
        have longer := ih (warnings ++ [] ++ bareWords back rest') inner (by omega) (by omega)
          (begun.binary written member phrase) stops'
        exact join_outcome longer (bareWords_cons_other word _ _).symm
      · intro back rest' said' fault _ breaks
        obtain ⟨viable, complaint, rfl⟩ := breaks
        refine ⟨?_, complaint, (bareWords_cons_other word _ _).symm⟩
        intro opened
        obtain ⟨more, expr, phrase⟩ := viable opened
        exact ⟨more, _, by simpa using begun.binary written member phrase⟩

theorem binaryLevel_accounts (operand : level.tighter.Accounts ending size parse)
    (joined : level.operators ≠ []) (enough : size < bound) :
    level.Accounts ending size (binaryLevel bound parse level.operators) := by
  intro tokens warnings small
  refine (operand tokens warnings small).bind ?_ fun _ _ _ _ _ fails => fails.lift
  intro front rest said result split reads
  cases result with
  | none =>
    obtain ⟨rfl, rfl, absent⟩ := reads
    refine .pure ⟨rfl, rfl, ?_⟩
    intro token next
    rw [Level.starts_eq, Level.leads_operators joined, absent token next, Bool.or_self]
  | some first =>
    obtain ⟨phrase, stops, spoken⟩ := reads
    have fewer : rest.length ≤ size := by
      rw [split, List.length_append] at small
      omega
    exact loop_outcome phrase spoken
      (foldOperators_outcome _ operand joined enough fewer (.operand phrase) stops)

theorem Level.Stops.of_absent {tokens : List Token}
    (stops : Level.disjunction.Stops tokens)
    (absent : ∀ token ∈ tokens.head?, Level.disjunction.starts token.kind = false) :
    Level.concatenation.Stops tokens := by
  intro token next
  rw [continues_eq, show concatenation.tighter = disjunction from rfl, stops token next, joins,
    absent token next, Bool.or_self]

theorem Level.Stops.unsigned {tokens : List Token} (stops : Level.disjunction.Stops tokens) :
    ∀ token ∈ tokens.head?, token.kind ≠ .minus ∧ token.kind ≠ .divide := by
  intro token next
  have ends := stops token next
  constructor
  · intro kind
    rw [kind] at ends
    cases ends
  · intro kind
    rw [kind] at ends
    cases ends

/-- The loop over phrases set side by side goes on with the phrase that was read so far. -/
theorem foldConcat_outcome {front : List Token} {first : Expr} (warnings : List Text)
    (operand : Level.disjunction.Accounts ending size parse) (enough : size < bound)
    (small : tokens.length ≤ size) (begun : Phrase .concatenation (opens tokens) front first)
    (stops : Level.disjunction.Stops tokens) :
    Outcome ending tokens warnings (Level.concatenation.Completes front)
      (Level.concatenation.BreaksOff ending front)
      (foldConcat parse bound first ⟨⟨tokens, ending⟩, warnings⟩) := by
  induction bound generalizing size tokens warnings front first with
  | zero => omega
  | succ bound ih =>
    refine (operand tokens warnings small).bind ?_ ?_
    · intro back rest said result split reads
      cases result with
      | none =>
        obtain ⟨rfl, rfl, absent⟩ := reads
        obtain rfl : tokens = rest := split
        exact .pure ⟨by simpa using begun, stops.of_absent absent, rfl⟩
      | some second =>
        obtain ⟨phrase, stops', spoken⟩ := reads
        obtain ⟨head, tail, rfl, -⟩ := phrase.head
        subst split
        have fewer : rest.length < size := by
          simp at small
          omega
        have begun' : Phrase .concatenation (opens (head :: tail)) front first := begun
        have longer := ih (warnings ++ said) (operand.weaken (Nat.sub_le size 1)) (by omega)
          (by omega) (begun'.concat phrase stops.unsigned) stops'
        exact join_outcome longer spoken
    · intro back rest said fault split fails
      obtain ⟨some, viable, complaint, spoken⟩ := fails
      obtain ⟨head, tail, rfl⟩ := List.exists_cons_of_ne_nil some
      subst split
      refine ⟨?_, complaint, spoken⟩
      intro opened
      obtain ⟨more, expr, phrase⟩ := viable opened
      have begun' : Phrase .concatenation (opens (head :: tail ++ more)) front first := begun
      exact ⟨more, _, by simpa using begun'.concat phrase stops.unsigned⟩

theorem concatenation_accounts {inner : Nested Feed}
    (operand : Level.disjunction.Accounts ending size (disjunction bound inner))
    (enough : size < bound) :
    Level.concatenation.Accounts ending size (concatenation bound inner) := by
  intro tokens warnings small
  refine (operand tokens warnings small).bind ?_
    fun _ _ _ _ _ (fails : Level.concatenation.tighter.Fails _ _ _ _ _) => fails.lift
  intro front rest said result split reads
  cases result with
  | none =>
    obtain ⟨rfl, rfl, absent⟩ := reads
    exact .pure ⟨rfl, rfl, absent⟩
  | some first =>
    obtain ⟨phrase, stops, spoken⟩ := reads
    have fewer : rest.length ≤ size := by
      rw [split, List.length_append] at small
      omega
    exact loop_outcome phrase spoken
      (foldConcat_outcome _ operand enough fewer (.operand phrase) stops)

/-- What stands in parentheses is read with fewer tokens left than the parentheses were. -/
def NestedAccounts (ending : Except Fault Position) (size : Nat) (inner : Nested Feed) : Prop :=
  0 < size → Level.expression.Accounts ending (size - 1) inner.expression ∧
    Level.concatenation.Accounts ending (size - 1) inner.argument

/-- Behind an expression comes a closing parenthesis or the end. -/
theorem Level.Stops.not_opens {tokens : List Token} (stops : Level.expression.Stops tokens) :
    opens tokens = false := by
  cases tokens with
  | nil => rfl
  | cons token rest =>
    have ends := stops token rfl
    rw [expression_continues, decide_eq_false_iff_not, Decidable.not_not] at ends
    simp [ends]

/-- The token that stands for a missing closing parenthesis. -/
private def closeToken : Token :=
  ⟨.closeParen, .text ")", default, none⟩

theorem paren_accounts {inner : Nested Feed} (nested : NestedAccounts ending size inner) :
    Level.paren.Accounts ending size (paren inner) := by
  intro tokens warnings small
  refine (take? _).bind ?_ fun _ _ _ _ _ none => none.elim
  intro front rest said result split taken
  cases result with
  | none =>
    obtain ⟨rfl, rfl, refused⟩ := taken
    refine lift_outcome (reference_accounts rest _ (by simpa [split] using small)) ?_ ?_
    · intro token next
      simpa [Level.leads] using refused token next
    · intro kind
      cases kind <;> rfl
  | some opener =>
    obtain ⟨rfl, rfl, member⟩ := taken
    have opening := List.mem_singleton.mp member
    have word : opener.kind ≠ .identifier := by simp [opening]
    have fewer : rest.length < size := by
      rw [split] at small
      exact small
    have expression := (nested (by omega)).1
    refine (expression.require (by omega)).bind ?_ ?_
    · intro inside rest' said' expr _ completes
      obtain ⟨phrase, stops, rfl⟩ := completes
      rw [stops.not_opens] at phrase
      refine (take _).bind ?_ ?_
      · intro last rest'' said'' closer split' taken'
        obtain ⟨rfl, rfl, member'⟩ := taken'
        have closing := List.mem_singleton.mp member'
        refine .pure ⟨.paren opening closing phrase, .of_whole (by decide), ?_⟩
        simp [split', bareWords, bareWords_append, word, closing]
      · intro last rest'' said'' fault split' failed
        obtain ⟨rfl, rfl, -, absent⟩ := failed
        refine ⟨by simp, ?_, .inr absent, ?_⟩
        · intro opened
          have whole : Phrase .paren opened (opener :: (inside ++ [closeToken])) expr :=
            .paren opening rfl phrase
          exact ⟨[closeToken], expr, by simpa using whole⟩
        · simp [split', bareWords, word]
    · intro inside rest' said' fault _ breaks
      obtain ⟨viable, complaint, rfl⟩ := breaks
      refine ⟨by simp, ?_, complaint, (bareWords_cons_other word _ _).symm⟩
      intro opened
      obtain ⟨more, expr, phrase⟩ := viable false
      have whole : Phrase .paren opened (opener :: (inside ++ more ++ [closeToken])) expr :=
        .paren opening rfl phrase
      exact ⟨more ++ [closeToken], expr, by simpa using whole⟩

def FollowedBy (more : List Token) (parts : List (List Token × Expr)) : Prop :=
  (∀ first, Separated (first :: parts.map Prod.fst) (first ++ more)) ∧
    ∀ part ∈ parts, Phrase .concatenation false part.1 part.2

theorem followedBy_nil : FollowedBy [] [] :=
  ⟨fun first => by simpa using Separated.one, by simp⟩

theorem FollowedBy.cons {comma : Token} {part more : List Token} {expr : Expr}
    {parts : List (List Token × Expr)} (kind : comma.kind = .comma)
    (phrase : Phrase .concatenation false part expr) (others : FollowedBy more parts) :
    FollowedBy (comma :: (part ++ more)) ((part, expr) :: parts) := by
  refine ⟨fun first => .more kind (others.1 part), ?_⟩
  intro other member
  rcases List.mem_cons.mp member with rfl | later
  · exact phrase
  · exact others.2 other later

theorem Level.Stops.of_no_comma {tokens : List Token} (stops : Level.concatenation.Stops tokens)
    (refused : ∀ token ∈ tokens.head?, token.kind ∉ [TokenKind.comma]) :
    Level.expression.Stops tokens := by
  intro token next
  have ends := stops token next
  have other := refused token next
  revert ends other
  cases token.kind <;> simp [Level.expression_continues] <;> decide

/-- Behind an argument comes a comma, a closing parenthesis or the end. -/
theorem Level.Stops.not_opens_argument {tokens : List Token}
    (stops : Level.concatenation.Stops tokens) : opens tokens = false := by
  cases tokens with
  | nil => rfl
  | cons token rest =>
    have ends := stops token rfl
    rw [opens_cons, decide_eq_false_iff_not]
    intro kind
    rw [kind] at ends
    cases ends

theorem moreArguments_outcome (warnings : List Text)
    (argument : Level.concatenation.Accounts ending size parse) (enough : size < bound)
    (small : tokens.length ≤ size) (stops : Level.concatenation.Stops tokens) :
    Outcome ending tokens warnings
      (fun more rest said result => ∃ parts, FollowedBy more parts ∧
        result = parts.map Prod.snd ∧ Level.expression.Stops rest ∧ said = bareWords more rest)
      (fun more rest said fault => (∃ more' parts, FollowedBy (more ++ more') parts) ∧
        Complaint ending rest fault ∧ said = bareWords more rest)
      (moreArguments parse bound ⟨⟨tokens, ending⟩, warnings⟩) := by
  induction bound generalizing size tokens warnings with
  | zero => omega
  | succ bound ih =>
    refine (take? _).bind ?_ fun _ _ _ _ _ none => none.elim
    intro taken rest said result split found
    cases result with
    | none =>
      obtain ⟨rfl, rfl, refused⟩ := found
      obtain rfl : tokens = rest := split
      exact .pure ⟨[], followedBy_nil, rfl, stops.of_no_comma refused, rfl⟩
    | some comma =>
      obtain ⟨rfl, rfl, member⟩ := found
      obtain rfl : tokens = comma :: rest := split
      have kind := List.mem_singleton.mp member
      have word : comma.kind ≠ .identifier := by simp [kind]
      have fewer : rest.length < size := small
      have inner := argument.weaken (Nat.sub_le size 1)
      refine (inner.require (by omega)).bind ?_ ?_
      · intro part rest' said' expr split' completes
        obtain ⟨phrase, stops', rfl⟩ := completes
        rw [stops'.not_opens_argument] at phrase
        subst split'
        rw [List.length_append] at fewer
        refine (ih _ inner (by omega) (by omega) stops').bind ?_ ?_
        · intro more rest'' said'' exprs split'' given
          obtain ⟨parts, others, rfl, ends, rfl⟩ := given
          refine .pure ⟨(part, expr) :: parts, ?_, rfl, ends, ?_⟩
          · simpa using others.cons kind phrase
          · simp [split'', bareWords, bareWords_append, word]
        · intro more rest'' said'' fault split'' failed
          obtain ⟨⟨more', parts, others⟩, complaint, rfl⟩ := failed
          refine ⟨⟨more', (part, expr) :: parts, ?_⟩, complaint, ?_⟩
          · simpa using others.cons kind phrase
          · simp [split'', bareWords, bareWords_append, word]
      · intro part rest' said' fault _ breaks
        obtain ⟨viable, complaint, rfl⟩ := breaks
        obtain ⟨more, expr, phrase⟩ := viable false
        refine ⟨⟨more, [(part ++ more, expr)], ?_⟩, complaint, (bareWords_cons_other word _ _).symm⟩
        simpa using followedBy_nil.cons kind phrase

def Arguments (inside : List Token) (parts : List (List Token × Expr)) : Prop :=
  Separated (parts.map Prod.fst) inside ∧ ∀ part ∈ parts, Phrase .concatenation false part.1 part.2

theorem FollowedBy.arguments {part more : List Token} {expr : Expr}
    {parts : List (List Token × Expr)} (phrase : Phrase .concatenation false part expr)
    (others : FollowedBy more parts) : Arguments (part ++ more) ((part, expr) :: parts) := by
  refine ⟨others.1 part, ?_⟩
  intro other member
  rcases List.mem_cons.mp member with rfl | later
  · exact phrase
  · exact others.2 other later

theorem arguments_outcome (argument : Level.concatenation.Accounts ending size parse)
    (enough : size < bound) (small : tokens.length ≤ size) :
    Outcome ending tokens warnings
      (fun inside rest said result => ∃ parts, Arguments inside parts ∧
        result = parts.map Prod.snd ∧ said = bareWords inside rest)
      (fun inside rest said fault => (∃ more parts, Arguments (inside ++ more) parts) ∧
        Complaint ending rest fault ∧ said = bareWords inside rest)
      (Grammar.arguments bound parse ⟨⟨tokens, ending⟩, warnings⟩) := by
  refine (argument tokens warnings small).bind ?_ ?_
  · intro part rest said result split reads
    cases result with
    | none =>
      obtain ⟨rfl, rfl, -⟩ := reads
      exact .pure ⟨[], ⟨.none, by simp⟩, rfl, rfl⟩
    | some first =>
      obtain ⟨phrase, stops, rfl⟩ := reads
      rw [stops.not_opens_argument] at phrase
      have fewer : rest.length ≤ size := by
        rw [split, List.length_append] at small
        omega
      refine (moreArguments_outcome _ argument enough fewer stops).bind ?_ ?_
      · intro more rest' said' exprs split' given
        obtain ⟨parts, others, rfl, -, rfl⟩ := given
        refine .pure ⟨(part, first) :: parts, ?_, rfl, ?_⟩
        · simpa using others.arguments phrase
        · simp [split', bareWords_append]
      · intro more rest' said' fault split' failed
        obtain ⟨⟨more', parts, others⟩, complaint, rfl⟩ := failed
        refine ⟨⟨more', (part, first) :: parts, ?_⟩, complaint, ?_⟩
        · simpa using others.arguments phrase
        · simp [split', bareWords_append]
  · intro part rest said fault _ fails
    obtain ⟨-, viable, complaint, spoken⟩ := fails
    obtain ⟨more, expr, phrase⟩ := viable false
    refine ⟨⟨more, [(part ++ more, expr)], ?_⟩, complaint, spoken⟩
    simpa using followedBy_nil.arguments phrase

theorem bareWords_call {word opener : Token} (opening : opener.kind = .openParen)
    (inside rest : List Token) :
    bareWords (word :: opener :: inside) rest = bareWords inside rest := by
  simp [bareWords, opening]

theorem viable_call {word opener : Token} {inside more : List Token}
    {parts : List (List Token × Expr)} (kind : word.kind = .identifier)
    (opening : opener.kind = .openParen) (given : Arguments (inside ++ more) parts) :
    Viable .call (word :: opener :: inside) := by
  intro opened
  have whole : Phrase .call opened (word :: opener :: (inside ++ more ++ [closeToken])) _ :=
    .call kind opening rfl parts given.1 given.2
  exact ⟨more ++ [closeToken], _, by simpa using whole⟩

theorem call_accounts {inner : Nested Feed} (nested : NestedAccounts ending size inner)
    (enough : size < bound) : Level.call.Accounts ending size (call bound inner) := by
  intro tokens warnings small
  refine (take? _).bind ?_ fun _ _ _ _ _ none => none.elim
  intro front rest said result split taken
  cases result with
  | none =>
    obtain ⟨rfl, rfl, refused⟩ := taken
    refine lift_outcome (paren_accounts nested rest _ (by simpa [split] using small)) ?_ ?_
    · intro token next
      simpa [Level.leads] using refused token next
    · intro kind
      cases kind <;> rfl
  | some word =>
    obtain ⟨rfl, rfl, member⟩ := taken
    obtain rfl : tokens = word :: rest := split
    have kind := List.mem_singleton.mp member
    have fewer : rest.length < size := small
    refine (take? _).bind ?_ fun _ _ _ _ _ none => none.elim
    intro front rest' said result split' taken'
    cases result with
    | none =>
      obtain ⟨rfl, rfl, refused⟩ := taken'
      have unopened : opens rest' = false := by
        cases rest' with
        | nil => rfl
        | cons token _ => simpa using refused token rfl
      refine (warn _).bind ?_ fun _ _ _ _ _ none => none.elim
      rintro _ rest' _ _ _ ⟨rfl, rfl, rfl⟩
      refine .pure ⟨?_, .of_whole (by decide), ?_⟩
      · rw [unopened]
        exact .word kind
      · simp [bareWords, kind, unopened]
    | some opener =>
      obtain ⟨rfl, rfl, member'⟩ := taken'
      obtain rfl : rest = opener :: rest' := split'
      have opening := List.mem_singleton.mp member'
      have shorter : rest'.length + 1 < size := fewer
      have argument := (nested (by omega)).2
      refine (arguments_outcome argument (by omega) (by omega)).bind ?_ ?_
      · intro inside rest'' said'' exprs _ given
        obtain ⟨parts, given, rfl, rfl⟩ := given
        refine (take _).bind ?_ ?_
        · intro last rest said closer split taken
          obtain ⟨rfl, rfl, member⟩ := taken
          have closing := List.mem_singleton.mp member
          refine .pure ⟨?_, .of_whole (by decide), ?_⟩
          · simpa using Phrase.call kind opening closing parts given.1 given.2
          · simp [split, bareWords_call opening, bareWords_append, bareWords, closing]
        · intro last rest said fault split failed
          obtain ⟨rfl, rfl, -, absent⟩ := failed
          refine ⟨by simp, ?_, .inr absent, ?_⟩
          · have given' : Arguments (inside ++ []) parts := by rwa [List.append_nil]
            simpa using viable_call kind opening given'
          · simp [split, bareWords_call opening]
      · intro inside rest'' said'' fault _ failed
        obtain ⟨⟨more, parts, given⟩, complaint, rfl⟩ := failed
        refine ⟨by simp, viable_call kind opening given, complaint, ?_⟩
        exact (bareWords_call opening _ _).symm

theorem parseIn_accounts {inner : Nested Feed} (nested : NestedAccounts ending size inner)
    (enough : size < bound) (level : Level) :
    level.Accounts ending size (level.parseIn bound inner) := by
  induction level using Level.chain_induction with
  | tightest => exact literal_accounts
  | step level ih =>
    cases level with
    | expression | disjunction | conjunction | equality | relational | additive | multiplicative =>
      exact binaryLevel_accounts ih (List.cons_ne_nil _ _) enough
    | concatenation => exact concatenation_accounts ih enough
    | minus | slash | not => exact prefixLevel_accounts ih rfl enough
    | call => exact call_accounts nested enough
    | paren => exact paren_accounts nested
    | reference => exact reference_accounts
    | literal => exact literal_accounts

theorem nested_accounts (enough : size ≤ bound) : NestedAccounts ending size (nested bound) := by
  induction bound generalizing size with
  | zero => exact fun some => by omega
  | succ bound ih =>
    intro some
    have deeper : NestedAccounts ending (size - 1) (nested bound) := ih (by omega)
    exact ⟨parseIn_accounts deeper (by omega) .expression,
      parseIn_accounts deeper (by omega) .concatenation⟩

theorem parse_accounts (level : Level) (tokens : List Token) (warnings : List Text) :
    Outcome ending tokens warnings level.Reads (level.Fails ending)
      (level.parse ⟨⟨tokens, ending⟩, warnings⟩) := by
  have accounts : level.Accounts ending tokens.length
      (level.parseIn (tokens.length + 1) (nested (tokens.length + 1))) :=
    parseIn_accounts (nested_accounts (Nat.le_succ _)) (Nat.lt_succ_self _) level
  exact accounts tokens warnings (Nat.le_refl _)

/-- An expression is read as far as it goes on, or the parser stops where it cannot go on. -/
theorem expression_outcome (tokens : List Token) (warnings : List Text) :
    Outcome ending tokens warnings (Level.expression.Completes [])
      (Level.expression.BreaksOff ending [])
      (Parser.expression ⟨⟨tokens, ending⟩, warnings⟩) := by
  have accounts : Level.expression.Accounts ending tokens.length Level.expression.parse :=
    fun tokens warnings _ => parse_accounts .expression tokens warnings
  exact accounts.require (Nat.le_refl _)

end StyleExpr
