import StyleExpr.Proofs.Expr.Preorder
import StyleExpr.Proofs.Expr.WellFormed
import StyleExpr.Proofs.Lexeme.Sealed

/-! Trees in units of sixteen bits. Names and units hold no surrogates, so a tree that is read is told in
units but for its string literals. -/

namespace StyleExpr

open Lexeme (IsUnit)

def Value.inUnits : Value → Value
  | text content => text content.inUnits
  | value => value

namespace Expr

mutual

/-- The tree with each of its texts in units. -/
def inUnits : Expr → Expr
  | binary left right operator position => binary left.inUnits right.inUnits operator position
  | unary operand operator position => unary operand.inUnits operator position
  | call name arguments position => call name.inUnits (inUnitsAll arguments) position
  | reference name position => reference name.inUnits position
  | literal kind value unit position => literal kind value.inUnits (unit.map Text.inUnits) position
  | bare position => bare position

def inUnitsAll : List Expr → List Expr
  | [] => []
  | first :: rest => first.inUnits :: inUnitsAll rest

end

@[simp] theorem inUnitsAll_eq_map (exprs : List Expr) : inUnitsAll exprs = exprs.map inUnits := by
  induction exprs with
  | nil => rfl
  | cons first rest ih => rw [inUnitsAll, ih, List.map_cons]

/-- No string literal of the tree holds a high surrogate right in front of a low one. -/
def Unpaired (expr : Expr) : Prop :=
  ∀ content unit position, literal .string (.text content) unit position ∈ expr.walk →
    Text.Unpaired content.toList

theorem mem_walk (expr : Expr) : expr ∈ expr.walk := by
  rw [walk_eq]
  exact List.mem_cons_self ..

theorem Unpaired.child {expr child : Expr} (unpaired : expr.Unpaired) (member : child ∈ expr.children) :
    child.Unpaired := by
  intro content unit position below
  refine unpaired content unit position ?_
  rw [walk_eq]
  exact List.mem_cons_of_mem _ (List.mem_flatMap_of_mem member below)

end Expr

theorem IsName.unpaired {name : List CodePoint} (named : IsName name) : Text.Unpaired name :=
  Text.unpaired_of_none fun _ member isHigh =>
    (Lexeme.delimiter_high isHigh).lacks_hyphenated _ named.hyphenated member

theorem Lexeme.IsUnit.unpaired {unit : List CodePoint} (measured : IsUnit unit) : Text.Unpaired unit :=
  Text.unpaired_of_none fun _ member isHigh =>
    (Lexeme.delimiter_high isHigh).lacks_unit _ (.inr measured) member

theorem Text.eq_of_inUnits {text other : Text} (unpaired : Text.Unpaired text.toList)
    (unpaired' : Text.Unpaired other.toList) (same : text.inUnits = other.inUnits) : text = other :=
  Text.toList_inj.mp (Text.eq_of_units unpaired unpaired' (congrArg Text.toList same))

theorem Text.eq_of_map_inUnits {unit unit' : Option Text} (measured : ∀ text ∈ unit, IsUnit text.toList)
    (measured' : ∀ text ∈ unit', IsUnit text.toList)
    (same : unit.map Text.inUnits = unit'.map Text.inUnits) : unit = unit' := by
  cases unit with
  | none => exact (Option.map_eq_none_iff.mp same.symm).symm
  | some text =>
    cases unit' with
    | none => cases same
    | some text' =>
      rw [Text.eq_of_inUnits (measured text rfl).unpaired (measured' text' rfl).unpaired
        (Option.some.inj same)]

theorem Value.IsReadable.inUnits {value : Value} (readable : value.IsReadable) :
    value.inUnits = value := by
  rcases readable with ⟨⟨⟩ | ⟨⟩⟩ | ⟨⟩ <;> rfl

/-- Lists with the same images are the same if each member is told by its image. -/
theorem map_inj_of_mem {α β : Type} {image : α → β} {items items' : List α}
    (tells : ∀ item ∈ items, ∀ other ∈ items', image item = image other → item = other)
    (same : items.map image = items'.map image) : items = items' := by
  induction items generalizing items' with
  | nil => exact (List.map_eq_nil_iff.mp same.symm).symm
  | cons item items ih =>
    cases items' with
    | nil => cases same
    | cons item' items' =>
      obtain ⟨first, rest⟩ := List.cons.inj same
      rw [tells item (List.mem_cons_self ..) item' (List.mem_cons_self ..) first,
        ih (fun item member other member' => tells item (List.mem_cons_of_mem _ member) other
          (List.mem_cons_of_mem _ member')) rest]

theorem Expr.WellFormed.eq_of_inUnits {first second : Expr} (readable : first.WellFormed Value.IsReadable)
    (readable' : second.WellFormed Value.IsReadable) (unpaired : first.Unpaired)
    (unpaired' : second.Unpaired) (same : first.inUnits = second.inUnits) : first = second := by
  induction readable generalizing second with
  | binary _ _ _ left_ih right_ih =>
    cases readable' with
    | binary left' right' =>
      obtain ⟨left, right, rfl, rfl⟩ := binary.inj same
      rw [left_ih left' (unpaired.child (by simp [children])) (unpaired'.child (by simp [children])) left,
        right_ih right' (unpaired.child (by simp [children])) (unpaired'.child (by simp [children])) right]
    | _ => cases same
  | unary _ _ ih =>
    cases readable' with
    | unary inner' =>
      obtain ⟨operand, rfl, rfl⟩ := unary.inj same
      rw [ih inner' (unpaired.child (by simp [children])) (unpaired'.child (by simp [children])) operand]
    | _ => cases same
  | call word each ih =>
    cases readable' with
    | call word' each' =>
      obtain ⟨name, arguments, rfl⟩ := call.inj same
      rw [inUnitsAll_eq_map, inUnitsAll_eq_map] at arguments
      have told := map_inj_of_mem (fun argument member other member' => ih argument member
        (each' other member') (unpaired.child member) (unpaired'.child member')) arguments
      rw [told, Text.eq_of_inUnits word.named.unpaired word'.named.unpaired (Value.text.inj name)]
    | _ => cases same
  | reference named =>
    cases readable' with
    | reference named' =>
      obtain ⟨name, rfl⟩ := reference.inj same
      rw [Text.eq_of_inUnits named.unpaired named'.unpaired (Value.text.inj name)]
    | _ => cases same
  | string =>
    cases readable' with
    | string =>
      obtain ⟨-, content, -, rfl⟩ := literal.inj same
      rw [Text.eq_of_inUnits (unpaired _ _ _ (mem_walk _)) (unpaired' _ _ _ (mem_walk _))
        (Value.text.inj content)]
    | _ => cases same
  | number number measured =>
    cases readable' with
    | number number' measured' =>
      obtain ⟨-, value, unit, rfl⟩ := literal.inj same
      rw [number.inUnits, number'.inUnits] at value
      rw [value, Text.eq_of_map_inUnits measured measured' unit]
    | _ => cases same
  | color color =>
    cases readable' with
    | color color' =>
      cases color
      cases color'
      obtain ⟨-, value, -, rfl⟩ := literal.inj same
      rw [show Value.tuple _ = Value.tuple _ from value]
    | _ => cases same
  | bool =>
    cases readable' with
    | bool => exact same
    | _ => cases same

end StyleExpr
