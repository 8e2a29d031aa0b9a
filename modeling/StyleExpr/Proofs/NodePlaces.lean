import StyleExpr.Proofs.Grammar.Heads
import StyleExpr.Proofs.RoundTrip
import StyleExpr.Proofs.Source.Ascending

/-! The places of the nodes along the walk of a tree. They follow the text that the tree is read off. -/

namespace StyleExpr

variable {expr : Expr} {text : Text} {start : Position}

/-- If each node of the visited trees stands where its leftmost node does, and those that join no two
operands ascend, then the places of all of them never descend. -/
theorem Expr.visit_ascending {stack : List Expr}
    (placed : ∀ node ∈ visit stack, node.position = node.leftmost.position)
    (ascending : ((visit stack).filter (·.form ≠ .binary)).Pairwise (·.position < ·.position)) :
    (visit stack).Pairwise (·.position ≤ ·.position) := by
  induction stack using visit.induct with
  | case1 =>
    rw [visit_nil]
    exact .nil
  | case2 node stack ih =>
    -- The leftmost node below `node` comes first among those that join no operands.
    have least : ∀ other ∈ visit (node :: stack), node.position ≤ other.position := by
      intro other member
      obtain ⟨later, first⟩ := filter_visit_cons node stack
      have inside := leftmost_mem_visit member
      rw [first] at inside ascending
      rw [placed other member, placed node (by rw [visit_cons]; exact List.mem_cons_self ..)]
      rcases List.mem_cons.mp inside with same | behind
      · rw [same]
        exact Position.le_refl _
      · exact Position.le_of_lt ((List.pairwise_cons.mp ascending).1 _ behind)
    rw [visit_cons] at placed ascending least ⊢
    have others := List.sublist_cons_self node (visit (node.children ++ stack))
    refine .cons (fun other member => least other (others.mem member)) (ih ?_ ?_)
    · exact fun other member => placed other (others.mem member)
    · exact ascending.sublist (others.filter _)

/-- The nodes of a tree that is read off a text stand in the order of the tokens taken. Apart from those
that join two operands they correspond one to one, along the walk, to the tokens that are words,
references, literals or signs, and have the places of these, which ascend. A node that joins two operands
stands where the first other node does that is reached by following left operands. -/
theorem nodes_follow_source (accepted : (Reading.ofText text start).1.outcome = .ok expr) :
    ∃ taken,
      (TokenSource.collect (Lexer.ofText text start)).1 =
          taken ++ (TokenSource.collect (Reading.ofText text start).2).1 ∧
        List.Forall₂ Token.Heads (headTokens false taken) expr.headed ∧
        (expr.headed.map Expr.position).Pairwise (· < ·) ∧
        (∀ node ∈ expr.walk, node.position = node.leftmost.position) ∧
        (expr.walk.map Expr.position).Pairwise (· ≤ ·) := by
  obtain ⟨tokens, ending, feeds⟩ := exists_feeds (Lexer.ofText text start)
  obtain ⟨taken, rest, rfl, phrase, left⟩ := Reading.exists_phrase feeds accepted
  have placed : ∀ node ∈ expr.walk, node.position = node.leftmost.position := by
    intro node member
    obtain ⟨_, _, _, inner, -⟩ := phrase.readOff_walk node member
    exact inner.position_leftmost
  have ascending : (expr.headed.map Expr.position).Pairwise (· < ·) := by
    have inside := (headTokens_sublist false taken).trans (List.sublist_append_left taken rest)
    rw [Token.Heads.map_position phrase.heads, List.pairwise_map]
    exact (feeds.transcript rfl).ascending.sublist inside
  obtain ⟨_, collected, -⟩ := feeds.collect_eq
  obtain ⟨_, remaining, -⟩ := left.collect_eq
  exact ⟨taken, by rw [collected, remaining], phrase.heads, ascending, placed,
    List.pairwise_map.mpr (Expr.visit_ascending placed (List.pairwise_map.mp ascending))⟩

/-- In `-f(1) -2` the first minus is a sign and begins a node, the second stands between two operands and
does not, so the whole tree stands where the sign does. -/
theorem nodes_follow_source_difference :
    let one : Expr := .literal .number (.int 1) none ⟨1, 4⟩
    let called : Expr := .call (.text "f") [one] ⟨1, 2⟩
    let signed : Expr := .unary called .minus ⟨1, 1⟩
    let two : Expr := .literal .number (.int 2) none ⟨1, 8⟩
    let expr : Expr := .binary signed two .minus ⟨1, 1⟩
    (Reading.ofText "-f(1) -2" ⟨1, 1⟩).1.outcome = .ok expr ∧
      (∃ taken, List.Forall₂ Token.Heads (headTokens false taken) [signed, called, one, two]) ∧
      expr.position = expr.leftmost.position ∧
      (expr.walk.map Expr.position).Pairwise (· ≤ ·) := by
  let sign : Token := ⟨.minus, .text "-", ⟨1, 1⟩, none⟩
  let word : Token := ⟨.identifier, .text "f", ⟨1, 2⟩, none⟩
  let opener : Token := ⟨.openParen, .text "(", ⟨1, 3⟩, none⟩
  let first : Token := ⟨.number, .int 1, ⟨1, 4⟩, none⟩
  let closer : Token := ⟨.closeParen, .text ")", ⟨1, 5⟩, none⟩
  let minus : Token := ⟨.minus, .text "-", ⟨1, 7⟩, none⟩
  let second : Token := ⟨.number, .int 2, ⟨1, 8⟩, none⟩
  intro one called signed two expr
  have lexed : tokenize "-f(1) -2" ⟨1, 1⟩ =
    .ok ([sign, word, opener, first, closer, minus, second] ++ []) := rfl
  have argument : Phrase .concatenation false [first] one := .ofLiteral _ _ rfl
  have call : Phrase .call false (word :: opener :: ([first] ++ [closer])) called :=
    .call rfl rfl rfl [([first], one)] .one (by simpa using argument)
  have left : Phrase .minus false (sign :: word :: opener :: ([first] ++ [closer])) signed :=
    .sign rfl (call.loosen (by decide))
  have whole : Phrase .additive false [sign, word, opener, first, closer, minus, second] expr :=
    .binary (left.loosen (by decide)) rfl (by decide) (.ofLiteral _ _ rfl)
  obtain ⟨lexer, read, -⟩ := Reading.ofText_phrase (feeds_of_tokenize lexed)
    (whole.loosen (by decide)) (Level.stops_nil _)
  have accepted : (Reading.ofText "-f(1) -2" ⟨1, 1⟩).1.outcome = .ok expr := by rw [read]
  obtain ⟨taken, -, heads, -, placed, ordered⟩ := nodes_follow_source accepted
  have nodes : expr.headed = [signed, called, one, two] := by simp [expr, signed, called, one, two]
  rw [nodes] at heads
  exact ⟨accepted, ⟨taken, heads⟩, placed expr (by rw [Expr.walk_eq]; exact List.mem_cons_self ..), ordered⟩

end StyleExpr
