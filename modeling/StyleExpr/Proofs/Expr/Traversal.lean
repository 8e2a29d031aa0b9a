import StyleExpr.Expr.Record
import StyleExpr.Proofs.Expr.Moved
import StyleExpr.Proofs.Expr.Preorder

/-! The nodes of a tree told by their addresses. The walk meets the nodes at all addresses in ascending
order, each of them once, and a nested record holds its records in the order of the walk. -/

namespace StyleExpr

namespace Record

def form : Record → Expr.Form
  | mk form _ _ _ => form

def position : Record → Position
  | mk _ position _ _ => position

mutual

/-- A record, then the records below it, those of one child behind those of another. -/
def flatten : Record → List Record
  | mk form position children detail => mk form position children detail :: flattenAll children

def flattenAll : List Record → List Record
  | [] => []
  | first :: rest => first.flatten ++ flattenAll rest

end

theorem flattenAll_eq_flatMap (records : List Record) :
    flattenAll records = records.flatMap flatten := by
  induction records with
  | nil => rfl
  | cons first rest ih => rw [flattenAll, ih, List.flatMap_cons]

end Record

namespace Expr

variable {expr : Expr} {address : List Nat}

/-- A record says of its node the form and the place, and holds the records of its children. -/
theorem record_eq (expr : Expr) :
    ∃ detail, expr.record = .mk expr.form expr.position (expr.children.map record) detail := by
  cases expr with
  | call name arguments position =>
    refine ⟨.name name, ?_⟩
    rw [record, recordAll_eq_map]
    rfl
  | binary | unary | reference | literal | bare => exact ⟨_, rfl⟩

theorem flatten_record (expr : Expr) : expr.record.flatten = expr.walk.map record := by
  induction expr using children_induction with
  | node expr ih =>
    obtain ⟨detail, same⟩ := expr.record_eq
    have below : expr.children.map (fun child => child.record.flatten) =
        expr.children.map (fun child => child.walk.map record) :=
      List.map_congr_left ih
    rw [walk_eq, List.map_cons, List.map_flatMap, List.flatMap_def, ← below, same, Record.flatten,
      Record.flattenAll_eq_flatMap, List.flatMap_map, List.flatMap_def]

/-- The node that is reached from a tree by going down to the child of each index. -/
def at? : List Nat → Expr → Option Expr
  | [], expr => some expr
  | index :: address, expr => expr.children[index]?.bind (at? address)

/-- The addresses of the nodes of a tree: the root, then those of each child behind its index. -/
def addresses (expr : Expr) : List (List Nat) :=
  [] :: (expr.children.attach.mapIdx fun index child =>
    (addresses child.val).map (index :: ·)).flatten
termination_by sizeOf expr
decreasing_by exact sizeOf_lt_of_mem_children child.property

def addressesBelow (expr : Expr) : List (List (List Nat)) :=
  expr.children.mapIdx fun index (child : Expr) => child.addresses.map (index :: ·)

theorem addresses_eq (expr : Expr) : expr.addresses = [] :: expr.addressesBelow.flatten := by
  have detached : (expr.children.attach.mapIdx fun index child =>
      (addresses child.val).map (index :: ·)) = expr.addressesBelow := by
    refine List.ext_getElem (by simp [addressesBelow]) fun index _ _ => ?_
    simp [addressesBelow]
  rw [addresses, detached]

theorem mem_addressesBelow_iff {group : List (List Nat)} : group ∈ expr.addressesBelow ↔
    ∃ index, ∃ child : Expr, expr.children[index]? = some child ∧
      group = child.addresses.map (index :: ·) := by
  rw [addressesBelow, List.mem_mapIdx]
  constructor
  · rintro ⟨index, inside, rfl⟩
    exact ⟨index, _, List.getElem?_eq_getElem inside, rfl⟩
  · rintro ⟨index, child, found, rfl⟩
    obtain ⟨inside, rfl⟩ := List.getElem?_eq_some_iff.mp found
    exact ⟨index, inside, rfl⟩

/-- Behind the index of a child stand the addresses of the child. -/
theorem cons_mem_addresses_iff {index : Nat} : index :: address ∈ expr.addresses ↔
    ∃ child, expr.children[index]? = some child ∧ address ∈ child.addresses := by
  rw [addresses_eq, List.mem_cons, or_iff_right (List.cons_ne_nil _ _), List.mem_flatten]
  constructor
  · rintro ⟨group, below, member⟩
    obtain ⟨_, child, found, rfl⟩ := mem_addressesBelow_iff.mp below
    obtain ⟨_, inner, same⟩ := List.mem_map.mp member
    obtain ⟨rfl, rfl⟩ := List.cons.inj same
    exact ⟨child, found, inner⟩
  · rintro ⟨child, found, inner⟩
    exact ⟨_, mem_addressesBelow_iff.mpr ⟨index, child, found, rfl⟩, List.mem_map_of_mem inner⟩

theorem mem_addresses_iff : address ∈ expr.addresses ↔ (at? address expr).isSome := by
  induction address generalizing expr with
  | nil => simp [addresses_eq, at?]
  | cons index address ih =>
    rw [cons_mem_addresses_iff, at?]
    cases found : expr.children[index]? with
    | none => simp
    | some child => simp [ih]

/-- Addresses ascend: a node comes in front of those below it, and one child with all nodes below it in
front of the next child. -/
theorem pairwise_addresses (expr : Expr) : expr.addresses.Pairwise (· < ·) := by
  induction expr using children_induction with
  | node expr ih =>
    rw [addresses_eq, List.pairwise_cons, List.pairwise_flatten]
    refine ⟨?_, ?_, ?_⟩
    · intro address member
      obtain ⟨group, below, inside⟩ := List.mem_flatten.mp member
      obtain ⟨index, child, -, rfl⟩ := mem_addressesBelow_iff.mp below
      obtain ⟨address, -, rfl⟩ := List.mem_map.mp inside
      exact List.nil_lt_cons ..
    · intro group below
      obtain ⟨index, child, found, rfl⟩ := mem_addressesBelow_iff.mp below
      have ordered := ih child (List.mem_of_getElem? found)
      refine List.pairwise_map.mpr (ordered.imp fun before => ?_)
      exact List.cons_lt_cons_iff.mpr (.inr ⟨rfl, before⟩)
    · rw [List.pairwise_iff_getElem]
      intro first second _ _ before address member address' member'
      simp only [addressesBelow, List.getElem_mapIdx, List.mem_map] at member member'
      obtain ⟨_, -, rfl⟩ := member
      obtain ⟨_, -, rfl⟩ := member'
      exact List.cons_lt_cons_iff.mpr (.inl before)

/-- The walk meets the nodes in the order of their addresses. -/
theorem map_at?_addresses (expr : Expr) :
    expr.addresses.map (at? · expr) = expr.walk.map some := by
  induction expr using children_induction with
  | node expr ih =>
    have below : expr.addressesBelow.map (List.map (at? · expr)) =
        expr.children.map fun child => child.walk.map some := by
      refine List.ext_getElem (by simp [addressesBelow]) fun index _ inside => ?_
      rw [List.length_map] at inside
      have onward : (fun address => at? (index :: address) expr) =
          (at? · expr.children[index]) := by
        funext address
        rw [at?, List.getElem?_eq_getElem inside, Option.bind_some]
      simp only [addressesBelow, List.getElem_map, List.getElem_mapIdx, List.map_map, Function.comp_def,
        onward]
      exact ih _ (List.getElem_mem inside)
    rw [addresses_eq, walk_eq, List.map_cons, List.map_cons, List.map_flatten, below, List.map_flatMap,
      List.flatMap_def]
    rfl

/-- The walk of a tree is its root, followed by the walks of the children one after another, and the
records of its nested record say the same forms and places in the same order. Of the nodes of the tree,
told by their addresses, it meets each exactly once, and in ascending order. -/
theorem walk_in_order (expr : Expr) :
    expr.walk = expr :: expr.children.flatMap walk ∧
      expr.record.flatten.map (fun record => (record.form.label, record.position)) =
        expr.walk.map (fun node => (node.form.label, node.position)) ∧
      expr.addresses.Pairwise (· < ·) ∧
      (∀ address, address ∈ expr.addresses ↔ (at? address expr).isSome) ∧
      expr.addresses.map (at? · expr) = expr.walk.map some := by
  have said (node : Expr) : (node.record.form.label, node.record.position) =
      (node.form.label, node.position) := by
    obtain ⟨detail, same⟩ := node.record_eq
    rw [same]
    rfl
  refine ⟨walk_eq expr, ?_, pairwise_addresses expr, fun _ => mem_addresses_iff, map_at?_addresses expr⟩
  rw [flatten_record, List.map_map]
  exact List.map_congr_left fun node _ => said node

end Expr

end StyleExpr
