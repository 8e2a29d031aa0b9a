/-! Texts: sequences of code points, in which surrogates can stand too. -/

namespace StyleExpr

/-- A code point is a character, or a surrogate that stands by itself. -/
inductive CodePoint where
  | scalar (c : Char)
  /-- The surrogate with the number `0xD800 + index`. -/
  | surrogate (index : Fin 0x800)
  deriving DecidableEq

export CodePoint (scalar surrogate)

namespace CodePoint

instance : Coe Char CodePoint := ⟨scalar⟩

def toNat : CodePoint → Nat
  | scalar c => c.toNat
  | surrogate index => 0xD800 + index

@[simp] theorem toNat_scalar (c : Char) : (scalar c).toNat = c.toNat := rfl

@[simp] theorem toNat_surrogate (index : Fin 0x800) : (surrogate index).toNat = 0xD800 + index :=
  rfl

end CodePoint

structure Text where
  ofList ::
  toList : List CodePoint
  deriving DecidableEq

namespace Text

def ofString (text : String) : Text :=
  ofList (text.toList.map scalar)

instance : Coe String Text := ⟨ofString⟩

instance : Append Text := ⟨fun front rest => ofList (front.toList ++ rest.toList)⟩

protected def length (text : Text) : Nat := text.toList.length

protected def isEmpty (text : Text) : Bool := text.toList.isEmpty

protected def startsWith (text front : Text) : Bool := front.toList.isPrefixOf text.toList

protected def join (texts : List Text) : Text :=
  ofList (texts.flatMap toList)

protected def intercalate (separator : Text) (texts : List Text) : Text :=
  ofList (separator.toList.intercalate (texts.map toList))

/-- The digits of a number in a base of at most sixteen. -/
protected def digits (base number : Nat) : List CodePoint :=
  (Nat.toDigits base number).map scalar

@[simp] theorem toList_ofList (chars : List CodePoint) : (ofList chars).toList = chars := rfl

@[simp] theorem ofList_toList (text : Text) : ofList text.toList = text := rfl

@[simp] theorem toList_ofString (text : String) : (ofString text).toList = text.toList.map scalar :=
  rfl

@[simp] theorem toList_append (front rest : Text) :
    (front ++ rest).toList = front.toList ++ rest.toList := rfl

@[simp] theorem toList_join (texts : List Text) : (Text.join texts).toList = texts.flatMap toList := rfl

@[simp] theorem length_ofList {chars : List CodePoint} : (ofList chars).length = chars.length := rfl

@[simp] theorem length_toList (text : Text) : text.toList.length = text.length := rfl

@[simp] theorem ofList_inj {chars others : List CodePoint} :
    ofList chars = ofList others ↔ chars = others :=
  ⟨congrArg toList, congrArg ofList⟩

theorem toList_inj {text other : Text} : text.toList = other.toList ↔ text = other :=
  ⟨congrArg ofList, congrArg toList⟩

@[simp] theorem ofString_inj {text other : String} :
    ofString text = ofString other ↔ text = other :=
  ⟨fun same => String.toList_inj.mp
    ((List.map_inj_right fun _ _ => CodePoint.scalar.inj).mp (congrArg toList same)),
   congrArg ofString⟩

@[simp] theorem empty_append (text : Text) : ofString "" ++ text = text := rfl

@[simp] theorem append_empty (text : Text) : text ++ ofString "" = text :=
  toList_inj.mp (List.append_nil _)

theorem append_assoc (text next rest : Text) : text ++ next ++ rest = text ++ (next ++ rest) :=
  toList_inj.mp (List.append_assoc ..)

@[simp] theorem join_nil : Text.join [] = ofString "" := rfl

theorem join_cons (text : Text) (texts : List Text) :
    Text.join (text :: texts) = text ++ Text.join texts :=
  rfl

@[simp] theorem intercalate_singleton (separator text : Text) :
    Text.intercalate separator [text] = text := by
  simp [Text.intercalate, List.intercalate]

@[simp] theorem intercalate_cons_cons (separator text next : Text) (texts : List Text) :
    Text.intercalate separator (text :: next :: texts) =
      text ++ separator ++ Text.intercalate separator (next :: texts) := by
  simp [Text.intercalate, ← toList_inj, List.intercalate]

theorem intercalate_cons_of_ne_nil {separator text : Text} {texts : List Text} (more : texts ≠ []) :
    Text.intercalate separator (text :: texts) =
      text ++ separator ++ Text.intercalate separator texts := by
  cases texts with
  | nil => exact absurd rfl more
  | cons next texts => exact intercalate_cons_cons ..

end Text

end StyleExpr
