import StyleExpr.Proofs.Expr.Preorder
import StyleExpr.Proofs.Grammar.Phrase

/-! The places of the nodes of a tree that is read. Each of them is the place of a token. -/

namespace StyleExpr

/-- The tree is read off some of the tokens. -/
def ReadOff (tokens : List Token) (expr : Expr) : Prop :=
  ∃ level opened part, Phrase level opened part expr ∧ part ⊆ tokens

variable {tokens more : List Token} {expr child : Expr} {level : Level} {opened : Bool}

theorem ReadOff.mono (readOff : ReadOff tokens expr) (fewer : tokens ⊆ more) : ReadOff more expr := by
  obtain ⟨level, opened, part, phrase, inside⟩ := readOff
  exact ⟨level, opened, part, phrase, List.Subset.trans inside fewer⟩

theorem Phrase.readOff (phrase : Phrase level opened tokens expr) : ReadOff tokens expr :=
  ⟨level, opened, tokens, phrase, List.Subset.refl _⟩

theorem Phrase.readOff_child (phrase : Phrase level opened tokens expr) :
    ∀ child ∈ expr.children, ReadOff tokens child := by
  induction phrase with
  | operand _ ih => exact ih
  | binary before _ _ behind =>
    simp only [Expr.children, List.forall_mem_cons, List.not_mem_nil, false_imp_iff, implies_true, and_true]
    exact ⟨before.readOff.mono (List.subset_append_left ..),
      behind.readOff.mono (List.subset_append_of_subset_right _ (List.subset_cons_self ..))⟩
  | concat before behind =>
    simp only [Expr.children, List.forall_mem_cons, List.not_mem_nil, false_imp_iff, implies_true, and_true]
    exact ⟨before.readOff.mono (List.subset_append_left ..),
      behind.readOff.mono (List.subset_append_right ..)⟩
  | sign _ inner =>
    exact List.forall_mem_singleton.mpr (inner.readOff.mono (List.subset_cons_self ..))
  | @call word opener closer inside opened _ _ _ parts separated each =>
    intro child member
    obtain ⟨part, listed, rfl⟩ := List.mem_map.mp member
    refine (each part listed).readOff.mono fun token within => ?_
    have inner := separated.mem (List.mem_map_of_mem listed) token within
    exact List.mem_cons_of_mem _ (List.mem_cons_of_mem _ (List.mem_append_left _ inner))
  | paren _ _ _ ih =>
    intro child member
    refine (ih child member).mono fun token within => ?_
    exact List.mem_cons_of_mem _ (List.mem_append_left _ within)
  | word | reference | literal => exact List.forall_mem_nil _

theorem Phrase.position_mem (phrase : Phrase level opened tokens expr) :
    expr.position ∈ tokens.map Token.position := by
  induction phrase with
  | operand _ ih => exact ih
  | binary _ _ _ _ ih | concat _ _ _ ih =>
    rw [List.map_append]
    exact List.mem_append_left _ ih
  | sign | word | call | reference | literal => exact List.mem_cons_self ..
  | paren _ _ _ ih =>
    rw [List.map_cons, List.map_append]
    exact List.mem_cons_of_mem _ (List.mem_append_left _ ih)

theorem Phrase.readOff_walk (phrase : Phrase level opened tokens expr) :
    ∀ node ∈ expr.walk, ReadOff tokens node := by
  refine Expr.forall_walk ?_ phrase.readOff
  rintro node ⟨level, opened, part, inner, inside⟩ child member
  exact (inner.readOff_child child member).mono inside

/-- Every node of a tree has the place of a token that it is read off. -/
theorem Phrase.positions (phrase : Phrase level opened tokens expr) :
    ∀ node ∈ expr.walk, node.position ∈ tokens.map Token.position := by
  intro node member
  obtain ⟨level, opened, part, inner, inside⟩ := phrase.readOff_walk node member
  exact List.map_subset _ inside inner.position_mem

end StyleExpr
