import Mathlib.Data.List.Basic
import StyleExpr.Proofs.Json.Quoted
import StyleExpr.Proofs.Number.Display

/-! The layout of a JSON value tells the value. In every layout a comma, a new line or nothing follows a
value, so a number tells where it ends; texts, arrays and objects are closed. -/

namespace StyleExpr.JsonValue

/-- Induction over values: an array may assume the statement of its items, an object that of the values
of its fields. -/
@[elab_as_elim]
theorem value_induction {motive : JsonValue → Prop} (null : motive .null)
    (bool : ∀ truth, motive (.bool truth)) (int : ∀ number, motive (.int number))
    (double : ∀ number, motive (.double number)) (text : ∀ content, motive (.text content))
    (array : ∀ items, (∀ item ∈ items, motive item) → motive (.array items))
    (object : ∀ fields : List (Text × JsonValue),
      (∀ field ∈ fields, motive field.2) → motive (.object fields))
    (value : JsonValue) : motive value := by
  induction size : sizeOf value using Nat.strongRecOn generalizing value with
  | _ size ih =>
    subst size
    cases value with
    | null => exact null
    | bool truth => exact bool truth
    | int number => exact int number
    | double number => exact double number
    | text content => exact text content
    | array items =>
      apply array
      intro item member
      have smaller := List.sizeOf_lt_of_mem member
      exact ih _ (by simp only [JsonValue.array.sizeOf_spec]; omega) item rfl
    | object fields =>
      apply object
      rintro ⟨key, value⟩ member
      have smaller := List.sizeOf_lt_of_mem member
      simp only [Prod.mk.sizeOf_spec] at smaller
      exact ih _ (by simp only [JsonValue.object.sizeOf_spec]; omega) value rfl

mutual

/-- The value with each of its texts in units. -/
def inUnits : JsonValue → JsonValue
  | text content => text content.inUnits
  | array items => array (inUnitsAll items)
  | object fields => object (inUnitsFields fields)
  | null => null
  | bool truth => bool truth
  | int number => int number
  | double number => double number

def inUnitsAll : List JsonValue → List JsonValue
  | [] => []
  | item :: items => item.inUnits :: inUnitsAll items

def inUnitsFields : List (Text × JsonValue) → List (Text × JsonValue)
  | [] => []
  | (key, value) :: fields => (key.inUnits, value.inUnits) :: inUnitsFields fields

end

@[simp] theorem inUnitsAll_eq_map (items : List JsonValue) :
    inUnitsAll items = items.map inUnits := by
  induction items with
  | nil => rfl
  | cons item items ih => rw [inUnitsAll, ih, List.map_cons]

@[simp] theorem inUnitsFields_eq_map (fields : List (Text × JsonValue)) :
    inUnitsFields fields = fields.map fun field => (field.1.inUnits, field.2.inUnits) := by
  induction fields with
  | nil => rfl
  | cons field fields ih => rw [inUnitsFields, ih, List.map_cons]

def chars (level : Nat) (value : JsonValue) : List CodePoint :=
  (value.pieces level).flatMap Text.toList

def fieldChars (level : Nat) (field : Text × JsonValue) : List CodePoint :=
  (quoted field.1).toList ++ scalar ':' :: scalar ' ' :: chars level field.2

theorem toList_layout (value : JsonValue) : value.layout.toList = value.chars 0 :=
  Text.toList_join _

section Listed

variable {α : Type}

def others (level : Nat) (write : α → List CodePoint) (items : List α) : List CodePoint :=
  items.flatMap fun item => scalar ',' :: (newline (level + 1)).toList ++ write item

/-- Items on lines of their own and the bracket behind them. -/
def listed (level : Nat) (write : α → List CodePoint) (close : CodePoint) : List α → List CodePoint
  | [] => [close]
  | first :: rest =>
    (newline (level + 1)).toList ++ write first ++ others level write rest ++
      (newline level).toList ++ [close]

variable {level : Nat} {write : α → List CodePoint} {close : CodePoint} {item : α} {items items' : List α}
variable {β : Type} {view : α → β}
variable {rest rest' : List CodePoint}

/-- What can follow a value in a layout: nothing, a comma or a new line. -/
def Ends (rest : List CodePoint) : Prop :=
  ∀ c ∈ rest.head?, c = scalar ',' ∨ c = scalar '\n'

/-- The text of an item tells `view` of the item, and where it ends. -/
def Tells {β : Type} (write : α → List CodePoint) (view : α → β) (item : α) : Prop :=
  ∀ {other : α} {rest rest' : List CodePoint}, Ends rest → Ends rest' →
    write item ++ rest = write other ++ rest' → view item = view other ∧ rest = rest'

theorem ends_nil : Ends [] := by
  simp [Ends]

theorem ends_comma (rest : List CodePoint) : Ends (scalar ',' :: rest) := by
  simp [Ends]

theorem ends_newline (level : Nat) (rest : List CodePoint) : Ends ((newline level).toList ++ rest) := by
  simp [Ends, newline]

theorem others_cons (item : α) (items : List α) (rest : List CodePoint) :
    others level write (item :: items) ++ rest =
      scalar ',' :: ((newline (level + 1)).toList ++ (write item ++ (others level write items ++ rest))) := by
  simp [others]

theorem ends_others (items : List α) (rest : List CodePoint) :
    Ends (others level write items ++ ((newline level).toList ++ rest)) := by
  cases items with
  | nil => exact ends_newline level rest
  | cons item items =>
    rw [others_cons]
    exact ends_comma _

/-- A new line in the place of a comma shows that no items are left. -/
theorem newline_ne_comma {behind : List CodePoint} :
    (newline level).toList ++ rest ≠ scalar ',' :: behind := by
  simp [newline]

theorem others_append_inj (tells : ∀ item ∈ items, Tells write view item)
    (same : others level write items ++ ((newline level).toList ++ rest) =
      others level write items' ++ ((newline level).toList ++ rest')) :
    items.map view = items'.map view ∧ rest = rest' := by
  have told : ∀ item ∈ items, ∀ item' ∈ items', ∀ rest rest', Ends rest → Ends rest' →
      scalar ',' :: (newline (level + 1)).toList ++ write item ++ rest =
        scalar ',' :: (newline (level + 1)).toList ++ write item' ++ rest' →
      view item = view item' ∧ rest = rest' := by
    intro item member item' _ rest rest' ends ends' same
    rw [List.append_assoc, List.append_assoc] at same
    exact tells item member ends ends' (List.append_cancel_left same)
  exact flatMap_append_inj view Ends (newline level).toList
    (fun _ _ _ same => newline_ne_comma same.symm) (ends_newline level) (fun _ _ => ends_comma _) told
    same

theorem listed_cons (item : α) (items : List α) (rest : List CodePoint) :
    listed level write close (item :: items) ++ rest =
      (newline (level + 1)).toList ++
        (write item ++ (others level write items ++ ((newline level).toList ++ close :: rest))) := by
  simp [listed]

theorem listed_append_inj (tells : ∀ item ∈ items, Tells write view item) (bracket : close ≠ scalar '\n')
    (same : listed level write close items ++ rest = listed level write close items' ++ rest') :
    items.map view = items'.map view ∧ rest = rest' := by
  have opens {level : Nat} {rest behind : List CodePoint} :
      (newline level).toList ++ rest ≠ close :: behind := by
    simp [newline, bracket.symm]
  cases items with
  | nil =>
    cases items' with
    | nil => exact ⟨rfl, (List.cons.inj same).2⟩
    | cons item' items' =>
      rw [listed_cons] at same
      exact (opens same.symm).elim
  | cons item items =>
    cases items' with
    | nil =>
      rw [listed_cons] at same
      exact (opens same).elim
    | cons item' items' =>
      rw [listed_cons, listed_cons] at same
      have behind := List.append_cancel_left same
      obtain ⟨here, later⟩ :=
        tells item (List.mem_cons_self ..) (ends_others items _) (ends_others items' _) behind
      obtain ⟨alike, closed⟩ :=
        others_append_inj (fun item member => tells item (List.mem_cons_of_mem _ member)) later
      rw [List.map_cons, List.map_cons, here, alike]
      exact ⟨rfl, (List.cons.inj closed).2⟩

end Listed

theorem chars_array (level : Nat) (items : List JsonValue) :
    chars level (.array items) = scalar '[' :: listed level (chars (level + 1)) (scalar ']') items := by
  have behind (items : List JsonValue) :
      (itemPieces level items).flatMap Text.toList = others level (chars (level + 1)) items := by
    induction items with
    | nil => rfl
    | cons item items ih => simp [itemPieces, others, chars, ih]
  cases items with
  | nil => rfl
  | cons first rest => simp [chars, pieces, listed, ← behind]

theorem chars_object (level : Nat) (fields : List (Text × JsonValue)) :
    chars level (.object fields) =
      scalar '\x7b' :: listed level (fieldChars (level + 1)) (scalar '\x7d') fields := by
  have behind (fields : List (Text × JsonValue)) :
      (fieldPieces level fields).flatMap Text.toList =
        others level (fieldChars (level + 1)) fields := by
    induction fields with
    | nil => rfl
    | cons field fields ih => simp [fieldPieces, others, fieldChars, chars, ih]
  cases fields with
  | nil => rfl
  | cons first rest => simp [chars, pieces, listed, fieldChars, ← behind]

inductive Kind where
  | null | bool | int | double | text | array | object
  deriving DecidableEq

def kind : JsonValue → Kind
  | null => .null
  | bool _ => .bool
  | int _ => .int
  | double _ => .double
  | text _ => .text
  | array _ => .array
  | object _ => .object

/-- What stands in front of the next comma or line feed may be a number. -/
def inNumber (c : CodePoint) : Bool :=
  c != scalar ',' && c != scalar '\n'

/-- Digits and a minus sign make an integer. -/
def inInteger (c : CodePoint) : Bool :=
  c.isDigit || c == scalar '-'

/-- The form of the value at the front of a text. Its first character tells that, but for numbers. -/
def kindOf (text : List CodePoint) : Kind :=
  match text.head? with
  | some (scalar 'n') => .null
  | some (scalar 't') | some (scalar 'f') => .bool
  | some (scalar '\x22') => .text
  | some (scalar '[') => .array
  | some (scalar '\x7b') => .object
  | _ => if (text.takeWhile inNumber).all inInteger then .int else .double

/-- A text that is read as a number, up to the next comma or line feed. -/
structure IsNumber (text : List CodePoint) : Prop where
  each : ∀ c ∈ text, inNumber c = true
  opens : ∃ c behind, text = c :: behind ∧ (c.isDigit = true ∨ c ∈ [scalar '-', scalar 'I', scalar 'N'])

variable {level : Nat} {text text' rest rest' : List CodePoint} {c : CodePoint}

theorem Ends.outside (ends : Ends rest) : ∀ c ∈ rest.head?, inNumber c = false := by
  intro c first
  rcases ends c first with rfl | rfl <;> rfl

theorem inNumber_of_isDigit (digit : c.isDigit = true) : inNumber c = true := by
  rw [inNumber, Bool.and_eq_true, bne_iff_ne, bne_iff_ne]
  constructor <;> rintro rfl <;> cases digit

theorem inNumber_of_isFigure (figure : Decimal.IsFigure c) : inNumber c = true := by
  rcases figure with digit | sign
  · exact inNumber_of_isDigit digit
  · simp only [List.mem_cons, List.not_mem_nil, or_false] at sign
    rcases sign with rfl | rfl | rfl | rfl <;> rfl

/-- Digits and more, with a minus sign in front if the number is negative. -/
theorem IsNumber.signed (each : ∀ c ∈ text, inNumber c = true)
    (first : DigitFirst text) (negative : Bool) :
    IsNumber (if negative then scalar '-' :: text else text) := by
  cases negative with
  | false =>
    obtain ⟨c, behind, split, digit⟩ := first
    exact ⟨each, c, behind, split, .inl digit⟩
  | true => exact ⟨List.forall_mem_cons.mpr ⟨rfl, each⟩, scalar '-', text, rfl, .inr (by decide)⟩

theorem digitFirst_digits (number : Nat) : DigitFirst (Text.digits 10 number) := by
  have first := (plain_digits number).digitFirst Text.digits_ne_nil []
  rwa [List.append_nil] at first

theorem isNumber_toString (number : Int) : IsNumber (Text.ofString (toString number)).toList := by
  rw [toList_toString]
  exact .signed (fun c member => inNumber_of_isDigit (plain_digits _ c member))
    (digitFirst_digits _) _

theorem toString_injective {number number' : Int}
    (same : Text.ofString (toString number) = toString number') : number = number' := by
  have written := congrArg Text.toList same
  rw [toList_toString, toList_toString] at written
  obtain ⟨signs, digits⟩ := signed_inj (digitFirst_digits _) (digitFirst_digits _) written
  have size := digits_injective digits
  have negative : number < 0 ↔ number' < 0 := decide_eq_decide.mp signs
  omega

theorem all_inInteger_toString (number : Int) :
    (Text.ofString (toString number)).toList.all inInteger = true := by
  have plain : ∀ c ∈ Text.digits 10 number.natAbs, inInteger c = true := by
    intro c member
    simp [inInteger, plain_digits number.natAbs c member]
  rw [toList_toString, List.all_eq_true]
  split
  · exact List.forall_mem_cons.mpr ⟨rfl, plain⟩
  · exact plain

theorem toList_doubleText (negative : Bool) (rank : Fin Double.finiteCount) :
    (doubleText (.finite negative rank)).toList =
      if negative then scalar '-' :: Double.magnitude rank else Double.magnitude rank := by
  show (Double.display (.finite negative rank)).toList = _
  rw [Double.display_finite, Text.toList_ofList]

theorem isFigure_of_mem_doubleText {negative : Bool} {rank : Fin Double.finiteCount}
    (member : c ∈ (doubleText (.finite negative rank)).toList) : Decimal.IsFigure c := by
  rw [toList_doubleText] at member
  cases negative with
  | false => exact Double.isFigure_of_mem_magnitude member
  | true =>
    rcases List.mem_cons.mp member with rfl | later
    · exact .inr (by decide)
    · exact Double.isFigure_of_mem_magnitude later

theorem isNumber_doubleText (number : Double) : IsNumber (doubleText number).toList := by
  cases number with
  | finite negative rank =>
    rw [toList_doubleText]
    exact .signed (fun c member => inNumber_of_isFigure (Double.isFigure_of_mem_magnitude member))
      (Double.digitFirst_magnitude rank) negative
  | infinite negative =>
    cases negative with
    | false => exact ⟨List.all_eq_true.mp rfl, scalar 'I', _, rfl, by decide⟩
    | true => exact ⟨List.all_eq_true.mp rfl, scalar '-', _, rfl, by decide⟩
  | nan => exact ⟨List.all_eq_true.mp rfl, scalar 'N', _, rfl, by decide⟩

theorem all_inInteger_doubleText (number : Double) :
    (doubleText number).toList.all inInteger = false := by
  cases number with
  | finite negative rank =>
    obtain ⟨c, member, mark⟩ := Double.exists_mark_mem_magnitude rank
    have outside : inInteger c = false := by rcases mark with rfl | rfl <;> rfl
    rw [toList_doubleText, List.all_eq_false]
    cases negative with
    | false => exact ⟨c, member, by simp [outside]⟩
    | true => exact ⟨c, List.mem_cons_of_mem _ member, by simp [outside]⟩
  | infinite negative => cases negative <;> decide
  | nan => decide

/-- The numbers that are not finite are written with letters. -/
theorem doubleText_finite_ne {negative : Bool} {rank : Fin Double.finiteCount} {other : Double}
    (letter : scalar 'I' ∈ (doubleText other).toList ∨ scalar 'N' ∈ (doubleText other).toList) :
    doubleText (.finite negative rank) ≠ doubleText other := by
  intro same
  rw [← same] at letter
  rcases letter with member | member
  · exact absurd (isFigure_of_mem_doubleText member) (by simp [Decimal.IsFigure])
  · exact absurd (isFigure_of_mem_doubleText member) (by simp [Decimal.IsFigure])

theorem doubleText_injective {number number' : Double}
    (same : doubleText number = doubleText number') : number = number' := by
  have infinite (negative : Bool) : scalar 'I' ∈ (doubleText (.infinite negative)).toList := by
    cases negative <;> decide
  have undefined : scalar 'N' ∈ (doubleText .nan).toList := by decide
  cases number with
  | finite negative rank =>
    cases number' with
    | finite => exact Double.display_finite_injective same
    | infinite other => exact absurd same (doubleText_finite_ne (.inl (infinite other)))
    | nan => exact absurd same (doubleText_finite_ne (.inr undefined))
  | infinite negative =>
    cases number' with
    | finite => exact absurd same.symm (doubleText_finite_ne (.inl (infinite negative)))
    | infinite other => cases negative <;> cases other <;> simp_all [doubleText]
    | nan => cases negative <;> simp [doubleText] at same
  | nan =>
    cases number' with
    | finite => exact absurd same.symm (doubleText_finite_ne (.inr undefined))
    | infinite other => cases other <;> simp [doubleText] at same
    | nan => rfl

theorem kindOf_number (number : IsNumber text) (ends : Ends rest) :
    kindOf (text ++ rest) = if text.all inInteger then .int else .double := by
  rw [kindOf, takeWhile_run number.each ends.outside]
  obtain ⟨c, behind, rfl, first⟩ := number.opens
  rw [List.cons_append, List.head?_cons]
  rcases first with digit | sign
  · split
    all_goals first | rfl | simp_all
  · simp only [List.mem_cons, List.not_mem_nil, or_false] at sign
    rcases sign with rfl | rfl | rfl <;> rfl

theorem chars_int (level : Nat) (number : Int) :
    chars level (.int number) = (Text.ofString (toString number)).toList := by
  simp [chars, pieces]

theorem chars_double (level : Nat) (number : Double) :
    chars level (.double number) = (doubleText number).toList := by
  simp [chars, pieces]

theorem chars_text (level : Nat) (content : Text) :
    chars level (.text content) = (quoted content).toList := by
  simp [chars, pieces]

theorem kindOf_chars (value : JsonValue) (ends : Ends rest) :
    kindOf (chars level value ++ rest) = value.kind := by
  cases value with
  | null => rfl
  | bool truth => cases truth <;> rfl
  | int number =>
    rw [chars_int, kindOf_number (isNumber_toString number) ends, all_inInteger_toString]
    rfl
  | double number =>
    rw [chars_double, kindOf_number (isNumber_doubleText number) ends, all_inInteger_doubleText]
    rfl
  | text content =>
    rw [chars_text, quoted, Text.toList_ofList]
    rfl
  | array items =>
    rw [chars_array]
    rfl
  | object fields =>
    rw [chars_object]
    rfl

theorem kind_eq {value other : JsonValue} (ends : Ends rest) (ends' : Ends rest')
    (same : chars level value ++ rest = chars level other ++ rest') : value.kind = other.kind := by
  rw [← kindOf_chars value ends, same, kindOf_chars other ends']

theorem tells_field {field : Text × JsonValue} (tells : Tells (chars level) inUnits field.2) :
    Tells (fieldChars level) (fun field => (field.1.inUnits, field.2.inUnits)) field := by
  intro other rest rest' ends ends' same
  simp only [fieldChars, List.append_assoc, List.cons_append] at same
  obtain ⟨key, behind⟩ := quoted_append_inj same
  obtain ⟨value, ended⟩ := tells ends ends' (List.cons.inj (List.cons.inj behind).2).2
  exact ⟨Prod.ext key value, ended⟩

/-- The layout of a value tells the value in units and where it ends, at every level. -/
theorem tells_chars (value : JsonValue) (level : Nat) : Tells (chars level) inUnits value := by
  induction value using value_induction generalizing level with
  | null =>
    intro other rest rest' ends ends' same
    have kinds := kind_eq ends ends' same
    cases other with
    | null => exact ⟨rfl, List.append_cancel_left same⟩
    | _ => cases kinds
  | bool truth =>
    intro other rest rest' ends ends' same
    have kinds := kind_eq ends ends' same
    cases other with
    | bool truth' => cases truth <;> cases truth' <;> simp_all [chars, pieces]
    | _ => cases kinds
  | int number =>
    intro other rest rest' ends ends' same
    have kinds := kind_eq ends ends' same
    cases other with
    | int number' =>
      rw [chars_int, chars_int] at same
      obtain ⟨written, ended⟩ := append_inj_of_run (isNumber_toString number).each
        (isNumber_toString number').each ends.outside ends'.outside same
      rw [toString_injective (Text.toList_inj.mp written)]
      exact ⟨rfl, ended⟩
    | _ => cases kinds
  | double number =>
    intro other rest rest' ends ends' same
    have kinds := kind_eq ends ends' same
    cases other with
    | double number' =>
      rw [chars_double, chars_double] at same
      obtain ⟨written, ended⟩ := append_inj_of_run (isNumber_doubleText number).each
        (isNumber_doubleText number').each ends.outside ends'.outside same
      rw [doubleText_injective (Text.toList_inj.mp written)]
      exact ⟨rfl, ended⟩
    | _ => cases kinds
  | text content =>
    intro other rest rest' ends ends' same
    have kinds := kind_eq ends ends' same
    cases other with
    | text content' =>
      rw [chars_text, chars_text] at same
      obtain ⟨units, ended⟩ := quoted_append_inj same
      exact ⟨congrArg text units, ended⟩
    | _ => cases kinds
  | array items ih =>
    intro other rest rest' ends ends' same
    have kinds := kind_eq ends ends' same
    cases other with
    | array items' =>
      rw [chars_array, chars_array] at same
      obtain ⟨alike, ended⟩ := listed_append_inj (fun item member => ih item member (level + 1))
        (by decide) (List.cons.inj same).2
      rw [inUnits, inUnits, inUnitsAll_eq_map, inUnitsAll_eq_map, alike]
      exact ⟨rfl, ended⟩
    | _ => cases kinds
  | object fields ih =>
    intro other rest rest' ends ends' same
    have kinds := kind_eq ends ends' same
    cases other with
    | object fields' =>
      rw [chars_object, chars_object] at same
      obtain ⟨alike, ended⟩ := listed_append_inj
        (fun field member => tells_field (ih field member (level + 1))) (by decide)
        (List.cons.inj same).2
      rw [inUnits, inUnits, inUnitsFields_eq_map, inUnitsFields_eq_map, alike]
      exact ⟨rfl, ended⟩
    | _ => cases kinds

theorem listed_map {α : Type} {write : α → List CodePoint} {view : α → α} {items : List α}
    (same : ∀ item ∈ items, write (view item) = write item) (level : Nat) (close : CodePoint) :
    listed level write close (items.map view) = listed level write close items := by
  cases items with
  | nil => rfl
  | cons first rest =>
    obtain ⟨here, behind⟩ := List.forall_mem_cons.mp same
    have others : others level write (rest.map view) = others level write rest := by
      rw [others, others, List.flatMap_map]
      exact List.flatMap_congr fun item member => by rw [behind item member]
    rw [List.map_cons, listed, listed, here, others]

/-- Texts are written unit by unit. -/
theorem chars_inUnits (value : JsonValue) (level : Nat) :
    chars level value.inUnits = chars level value := by
  induction value using value_induction generalizing level with
  | null | bool | int | double => rfl
  | text content => rw [inUnits, chars_text, chars_text, quoted_inUnits]
  | array items ih =>
    rw [inUnits, inUnitsAll_eq_map, chars_array, chars_array,
      listed_map (fun item member => ih item member (level + 1))]
  | object fields ih =>
    have same (field : Text × JsonValue) (member : field ∈ fields) :
        fieldChars (level + 1) (field.1.inUnits, field.2.inUnits) = fieldChars (level + 1) field := by
      rw [fieldChars, fieldChars, quoted_inUnits, ih field member (level + 1)]
    rw [inUnits, inUnitsFields_eq_map, chars_object, chars_object, listed_map same]

/-- Two values have one layout exactly if they are the same in units. -/
theorem layout_eq_iff {value value' : JsonValue} :
    value.layout = value'.layout ↔ value.inUnits = value'.inUnits := by
  rw [← Text.toList_inj, toList_layout, toList_layout]
  constructor
  · intro same
    exact (tells_chars value 0 ends_nil ends_nil (congrArg (· ++ []) same)).1
  · intro same
    rw [← chars_inUnits, same, chars_inUnits]

end StyleExpr.JsonValue
