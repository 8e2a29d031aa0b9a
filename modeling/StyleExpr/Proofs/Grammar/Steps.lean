import StyleExpr.Grammar.Levels
import StyleExpr.Proofs.Source.Feed

/-! What one parsing step does, told by what the source shows. Later proofs cite these equations and
do not open the steps. -/

namespace StyleExpr

namespace TokenSource

variable {σ : Type} [TokenSource σ] {source after : σ} {token : Token} {fault : Fault}

theorem position_of_token (looked : peek source = .ok (some token) after) :
    position source = .ok token.position after := by
  simp only [position, bind, EStateM.bind, looked]
  rfl

theorem position_of_end (looked : peek source = .ok none after) :
    position source = .ok (ending after) after := by
  simp only [position, bind, EStateM.bind, looked]
  rfl

theorem position_of_fault (looked : peek source = .error fault after) :
    position source = .error fault after := by
  simp only [position, bind, EStateM.bind, looked]

end TokenSource

namespace Parser

variable {σ : Type} {α β : Type}

theorem bind_of_ok {action : Parse σ α} {next : α → Parse σ β} {parser after : Parser σ} {result : α}
    (ran : action parser = .ok result after) : (action >>= next) parser = next result after := by
  simp only [bind, EStateM.bind, ran]

theorem bind_of_error {action : Parse σ α} {next : α → Parse σ β} {parser after : Parser σ}
    {fault : Fault} (ran : action parser = .error fault after) :
    (action >>= next) parser = .error fault after := by
  simp only [bind, EStateM.bind, ran]

theorem bind_of_same {action action' : Parse σ α} {next : α → Parse σ β} {parser parser' : Parser σ}
    (same : action parser = action' parser') : (action >>= next) parser = (action' >>= next) parser' := by
  simp only [bind, EStateM.bind, same]

theorem bind_eq_ok {action : Parse σ α} {next : α → Parse σ β} {parser after : Parser σ} {result : β}
    (ran : (action >>= next) parser = .ok result after) :
    ∃ first between, action parser = .ok first between ∧ next first between = .ok result after := by
  cases run : action parser with
  | ok first between =>
    rw [bind_of_ok run] at ran
    exact ⟨first, between, rfl, ran⟩
  | error fault between =>
    rw [bind_of_error run] at ran
    cases ran

theorem map_of_same {action action' : Parse σ α} {wrap : α → β} {parser parser' : Parser σ}
    (same : action parser = action' parser') : (wrap <$> action) parser = (wrap <$> action') parser' := by
  simp only [Functor.map, EStateM.map, same]

@[simp] theorem pure_run (result : α) (parser : Parser σ) :
    (pure result : Parse σ α) parser = .ok result parser := rfl

variable {source after : σ} {warnings : List Text} {fault : Fault}

theorem onSource_of_ok {action : EStateM Fault σ α} {result : α}
    (ran : action source = .ok result after) :
    onSource action ⟨source, warnings⟩ = .ok result ⟨after, warnings⟩ := by
  simp only [onSource, ran]

theorem onSource_of_error {action : EStateM Fault σ α} (ran : action source = .error fault after) :
    onSource action ⟨source, warnings⟩ = .error fault ⟨after, warnings⟩ := by
  simp only [onSource, ran]

variable [TokenSource σ] {token : Token}

theorem peek_of_ok {shown : Option Token} (looked : TokenSource.peek source = .ok shown after) :
    peek ⟨source, warnings⟩ = .ok shown ⟨after, warnings⟩ :=
  onSource_of_ok looked

theorem peek_of_fault (looked : TokenSource.peek source = .error fault after) :
    peek ⟨source, warnings⟩ = .error fault ⟨after, warnings⟩ :=
  onSource_of_error looked

variable {accepts : TokenKind → Option α}

theorem accept_of_some {result : α} (looked : TokenSource.peek source = .ok (some token) after)
    (accepted : accepts token.kind = some result) :
    accept accepts ⟨source, warnings⟩ =
      .ok (some (token, result)) ⟨TokenSource.drop after, warnings⟩ := by
  simp only [accept, bind_of_ok (peek_of_ok looked), accepted]
  rfl

theorem accept_of_none (looked : TokenSource.peek source = .ok (some token) after)
    (refused : accepts token.kind = none) :
    accept accepts ⟨source, warnings⟩ = .ok none ⟨after, warnings⟩ := by
  simp only [accept, bind_of_ok (peek_of_ok looked), refused]
  rfl

theorem accept_of_end (looked : TokenSource.peek source = .ok none after) :
    accept accepts ⟨source, warnings⟩ = .ok none ⟨after, warnings⟩ := by
  simp only [accept, bind_of_ok (peek_of_ok looked)]
  rfl

theorem accept_of_fault (looked : TokenSource.peek source = .error fault after) :
    accept accepts ⟨source, warnings⟩ = .error fault ⟨after, warnings⟩ := by
  rw [accept, bind_of_error (peek_of_fault looked)]

theorem nextKind_of_ok {shown : Option Token}
    (looked : TokenSource.peek source = .ok shown after) :
    nextKind ⟨source, warnings⟩ = .ok (shown.map (·.kind)) ⟨after, warnings⟩ := by
  rw [nextKind, bind_of_ok (peek_of_ok looked), pure_run]

theorem nextKind_of_fault (looked : TokenSource.peek source = .error fault after) :
    nextKind ⟨source, warnings⟩ = .error fault ⟨after, warnings⟩ := by
  rw [nextKind, bind_of_error (peek_of_fault looked)]

theorem fail_of_token {problem : Problem}
    (looked : TokenSource.peek source = .ok (some token) after) :
    (fail problem : Parse σ α) ⟨source, warnings⟩ =
      .error (.malformed problem token.position) ⟨after, warnings⟩ := by
  rw [fail, bind_of_ok (onSource_of_ok (TokenSource.position_of_token looked))]
  rfl

theorem fail_of_end {problem : Problem} (looked : TokenSource.peek source = .ok none after) :
    (fail problem : Parse σ α) ⟨source, warnings⟩ =
      .error (.malformed problem (TokenSource.ending after)) ⟨after, warnings⟩ := by
  rw [fail, bind_of_ok (onSource_of_ok (TokenSource.position_of_end looked))]
  rfl

theorem fail_ne_ok {problem : Problem} {parser after : Parser σ} {result : α} :
    (fail problem : Parse σ α) parser ≠ .ok result after := by
  intro ran
  obtain ⟨place, between, -, thrown⟩ := bind_eq_ok ran
  cases thrown

theorem require_eq_ok {parse : Parse σ (Option Expr)} {parser after : Parser σ} {expr : Expr}
    (ran : require parse parser = .ok expr after) : parse parser = .ok (some expr) after := by
  obtain ⟨read, between, run, rest⟩ := bind_eq_ok ran
  cases read with
  | some read =>
    cases rest
    exact run
  | none =>
    obtain ⟨found, behind, -, failed⟩ := bind_eq_ok rest
    exact absurd failed fail_ne_ok

end Parser

end StyleExpr
