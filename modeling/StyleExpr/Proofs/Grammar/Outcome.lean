import StyleExpr.Proofs.Grammar.Steps

/-! What a run on a feed did, said by the tokens it took, the tokens it left and the warnings it gave.
The rules put the outcomes of steps together. -/

namespace StyleExpr

variable {α β : Type}

/-- A run took `front` and left `rest`, said `said`, and then succeeded as `gives` tells or failed as
`fails` tells; or it met the fault at the end of the feed. -/
inductive Outcome (ending : Except Fault Position) (tokens : List Token) (warnings : List Text)
    (gives : List Token → List Token → List Text → α → Prop)
    (fails : List Token → List Token → List Text → Fault → Prop) :
    EStateM.Result Fault (Parser Feed) α → Prop where
  | ok (split : tokens = front ++ rest) (given : gives front rest said result) :
      Outcome ending tokens warnings gives fails (.ok result ⟨⟨rest, ending⟩, warnings ++ said⟩)
  | failed (split : tokens = front ++ rest) (failure : fails front rest said fault) :
      Outcome ending tokens warnings gives fails (.error fault ⟨⟨rest, ending⟩, warnings ++ said⟩)
  | broken (met : ending = .error fault) :
      Outcome ending tokens warnings gives fails (.error fault ⟨⟨[], ending⟩, said⟩)

namespace Outcome

variable {ending : Except Fault Position} {tokens : List Token} {warnings : List Text}
variable {gives gives' : List Token → List Token → List Text → α → Prop}
variable {fails fails' : List Token → List Token → List Text → Fault → Prop}
variable {result : EStateM.Result Fault (Parser Feed) α}

theorem mono (outcome : Outcome ending tokens warnings gives fails result)
    (given : ∀ front rest said result, tokens = front ++ rest → gives front rest said result →
      gives' front rest said result)
    (failure : ∀ front rest said fault, tokens = front ++ rest → fails front rest said fault →
      fails' front rest said fault) :
    Outcome ending tokens warnings gives' fails' result := by
  cases outcome with
  | ok split holds => exact .ok split (given _ _ _ _ split holds)
  | failed split holds => exact .failed split (failure _ _ _ _ split holds)
  | broken met => exact .broken met

theorem pure {result : α} (given : gives [] tokens [] result) :
    Outcome ending tokens warnings gives fails
      ((pure result : Parse Feed α) ⟨⟨tokens, ending⟩, warnings⟩) := by
  have outcome : Outcome ending tokens warnings gives fails
      (.ok result ⟨⟨tokens, ending⟩, warnings ++ []⟩) := .ok rfl given
  rwa [List.append_nil] at outcome

theorem throw {fault : Fault} (failure : fails [] tokens [] fault) :
    Outcome ending tokens warnings gives fails (.error fault ⟨⟨tokens, ending⟩, warnings⟩) := by
  have outcome : Outcome ending tokens warnings gives fails
      (.error fault ⟨⟨tokens, ending⟩, warnings ++ []⟩) := .failed rfl failure
  rwa [List.append_nil] at outcome

theorem bind {action : Parse Feed α} {next : α → Parse Feed β}
    {gives'' : List Token → List Token → List Text → β → Prop}
    (first : Outcome ending tokens warnings gives fails (action ⟨⟨tokens, ending⟩, warnings⟩))
    (second : ∀ front rest said result, tokens = front ++ rest → gives front rest said result →
      Outcome ending rest (warnings ++ said)
        (fun front' rest' said' => gives'' (front ++ front') rest' (said ++ said'))
        (fun front' rest' said' => fails' (front ++ front') rest' (said ++ said'))
        (next result ⟨⟨rest, ending⟩, warnings ++ said⟩))
    (failure : ∀ front rest said fault, tokens = front ++ rest → fails front rest said fault →
      fails' front rest said fault) :
    Outcome ending tokens warnings gives'' fails'
      ((action >>= next) ⟨⟨tokens, ending⟩, warnings⟩) := by
  cases ran : action ⟨⟨tokens, ending⟩, warnings⟩ with
  | ok result after =>
    rw [ran] at first
    rw [Parser.bind_of_ok ran]
    cases first with
    | ok split given =>
      have final := second _ _ _ _ split given
      revert final
      generalize next result _ = ran'
      intro final
      cases final with
      | ok split' given' =>
        rw [List.append_assoc]
        exact .ok (by rw [split, split', List.append_assoc]) given'
      | failed split' failure' =>
        rw [List.append_assoc]
        exact .failed (by rw [split, split', List.append_assoc]) failure'
      | broken met => exact .broken met
  | error fault after =>
    rw [ran] at first
    rw [Parser.bind_of_error ran]
    cases first with
    | failed split holds => exact .failed split (failure _ _ _ _ split holds)
    | broken met => exact .broken met

/-- A step that can only meet the fault at the end of the feed. -/
abbrev Steady (ending : Except Fault Position) (tokens : List Token) (warnings : List Text)
    (gives : List Token → List Token → List Text → α → Prop)
    (result : EStateM.Result Fault (Parser Feed) α) : Prop :=
  Outcome ending tokens warnings gives (fun _ _ _ _ => False) result

theorem warn (message : Text) :
    Steady ending tokens warnings
      (fun front rest said _ => front = [] ∧ rest = tokens ∧ said = [message])
      (Parser.warn message ⟨⟨tokens, ending⟩, warnings⟩) :=
  .ok rfl ⟨rfl, rfl, rfl⟩

/-- An accepted token is taken; if none is, nothing is, and the next token is refused. -/
def Accepted (accepts : TokenKind → Option α) (front rest : List Token) (said : List Text) :
    Option (Token × α) → Prop
  | some (token, result) => front = [token] ∧ said = [] ∧ accepts token.kind = some result
  | none => front = [] ∧ said = [] ∧ ∀ token ∈ rest.head?, accepts token.kind = none

theorem accept (accepts : TokenKind → Option α) :
    Steady ending tokens warnings (Accepted accepts)
      (Parser.accept accepts ⟨⟨tokens, ending⟩, warnings⟩) := by
  have nothing (refused : ∀ token ∈ tokens.head?, accepts token.kind = none) :
      Steady ending tokens warnings (Accepted accepts) (.ok none ⟨⟨tokens, ending⟩, warnings⟩) :=
    pure ⟨rfl, rfl, refused⟩
  cases tokens with
  | nil =>
    cases ending with
    | ok place =>
      rw [Parser.accept_of_end (Feed.peek_end place)]
      exact nothing (by simp)
    | error fault =>
      rw [Parser.accept_of_fault (Feed.peek_fault fault)]
      exact .broken rfl
  | cons token rest =>
    cases accepted : accepts token.kind with
    | none =>
      rw [Parser.accept_of_none Feed.peek_token accepted]
      exact nothing (by simpa using accepted)
    | some result =>
      rw [Parser.accept_of_some Feed.peek_token accepted]
      have outcome : Steady ending (token :: rest) warnings (Accepted accepts)
          (.ok (some (token, result)) ⟨⟨rest, ending⟩, warnings ++ []⟩) :=
        .ok rfl ⟨rfl, rfl, accepted⟩
      rwa [List.append_nil] at outcome

/-- A token of one of the kinds is taken, or the next one is of another kind. -/
def Taken (kinds : List TokenKind) (front rest : List Token) (said : List Text) :
    Option Token → Prop
  | some token => front = [token] ∧ said = [] ∧ token.kind ∈ kinds
  | none => front = [] ∧ said = [] ∧ ∀ token ∈ rest.head?, token.kind ∉ kinds

theorem take? (kinds : List TokenKind) :
    Steady ending tokens warnings (Taken kinds)
      (Parser.take? kinds ⟨⟨tokens, ending⟩, warnings⟩) := by
  refine (accept _).bind ?_ fun _ _ _ _ _ none => none
  intro front rest said result _ accepted
  cases result with
  | none =>
    obtain ⟨rfl, rfl, refused⟩ := accepted
    refine .pure ⟨rfl, rfl, ?_⟩
    intro token next member
    have none := refused token next
    simp [member] at none
  | some result =>
    obtain ⟨rfl, rfl, found⟩ := accepted
    refine .pure ⟨rfl, rfl, ?_⟩
    simp only [ite_eq_left_iff, reduceCtorEq] at found
    exact Decidable.not_not.mp found

def nextPlace : List Token → Except Fault Position → Except Fault Position
  | token :: _, _ => .ok token.position
  | [], ending => ending

/-- The fault at the place of the next token, or of the end, that names what is found there. -/
def Missing (problem : Option TokenKind → Problem) (ending : Except Fault Position)
    (rest : List Token) (fault : Fault) : Prop :=
  ∃ place, nextPlace rest ending = .ok place ∧
    fault = .malformed (problem (rest.head?.map (·.kind))) place

theorem missing {problem : Option TokenKind → Problem}
    (failure : ∀ fault, Missing problem ending tokens fault → fails [] tokens [] fault) :
    Outcome ending tokens warnings gives fails
      ((Parser.nextKind >>= fun found => Parser.fail (problem found)) ⟨⟨tokens, ending⟩, warnings⟩) := by
  cases tokens with
  | cons token rest =>
    rw [Parser.bind_of_ok (Parser.nextKind_of_ok Feed.peek_token),
      Parser.fail_of_token Feed.peek_token]
    exact throw (failure _ ⟨_, rfl, rfl⟩)
  | nil =>
    cases ending with
    | ok place =>
      rw [Parser.bind_of_ok (Parser.nextKind_of_ok (Feed.peek_end place)),
        Parser.fail_of_end (Feed.peek_end place)]
      exact throw (failure _ ⟨_, rfl, rfl⟩)
    | error fault =>
      rw [Parser.bind_of_error (Parser.nextKind_of_fault (Feed.peek_fault fault))]
      exact .broken rfl

theorem take (kinds : List TokenKind) :
    Outcome ending tokens warnings
      (fun front _ said token => front = [token] ∧ said = [] ∧ token.kind ∈ kinds)
      (fun front rest said fault => front = [] ∧ said = [] ∧
        (∀ token ∈ rest.head?, token.kind ∉ kinds) ∧ Missing (.expectedToken kinds) ending rest fault)
      (Parser.take kinds ⟨⟨tokens, ending⟩, warnings⟩) := by
  refine (take? kinds).bind ?_ fun _ _ _ _ _ none => none.elim
  intro front rest said result _ taken
  cases result with
  | none =>
    obtain ⟨rfl, rfl, refused⟩ := taken
    exact missing fun fault stated => ⟨rfl, rfl, refused, stated⟩
  | some token =>
    obtain ⟨rfl, rfl, member⟩ := taken
    exact .pure ⟨rfl, rfl, member⟩

end Outcome

end StyleExpr
