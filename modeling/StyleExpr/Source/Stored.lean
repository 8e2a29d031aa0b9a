import StyleExpr.Source.Basic

/-! Tokens that were produced elsewhere, as a token source. -/

namespace StyleExpr

structure StoredTokens where
  /-- How many tokens were taken. -/
  index : Nat
  remaining : List Token
  /-- The place reported behind the last token. -/
  ending : Position
  deriving DecidableEq

namespace StoredTokens

/-- The place behind a list of tokens: on the line of its last token, past the width of that
token. An empty list ends at the first place of a text. -/
def endOf (tokens : List Token) (line? column? : Option Int) :
    Except Token.LengthFault Position :=
  let line := line?.getD ((tokens.getLast?.map (·.position.line)).getD 1)
  match column?, tokens.getLast? with
  | some column, _ => .ok ⟨line, column⟩
  | none, some last => last.width.map fun width => ⟨line, last.position.column + width⟩
  | none, none => .ok ⟨line, 1⟩

/-- All tokens of a list, with the place of its end unless it is to be judged by the last token. -/
def ofList (tokens : List Token) (line? column? : Option Int) :
    Except Token.LengthFault StoredTokens :=
  (endOf tokens line? column?).map (⟨0, tokens, ·⟩)

def endingAt (tokens : List Token) (ending : Position) : StoredTokens :=
  ⟨0, tokens, ending⟩

def dropNext (stored : StoredTokens) : StoredTokens :=
  match stored.remaining with
  | _ :: rest => { stored with index := stored.index + 1, remaining := rest }
  | [] => stored

instance : TokenSource StoredTokens where
  peek := fun stored => .ok stored.remaining.head? stored
  drop := dropNext
  ending := StoredTokens.ending
  bound := fun stored => stored.remaining.length

end StoredTokens

end StyleExpr
