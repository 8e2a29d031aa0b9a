import StyleExpr.Text.Alphanumeric
import StyleExpr.Text.Blank

/-! Which classes of characters exclude each other, and where a run of one class ends. -/

namespace StyleExpr

theorem takeWhile_run {α : Type} {p : α → Bool} {front rest : List α}
    (each : ∀ c ∈ front, p c = true) (stop : ∀ c ∈ rest.head?, p c = false) :
    (front ++ rest).takeWhile p = front := by
  rw [List.takeWhile_append_of_pos each]
  cases rest with
  | nil => simp
  | cons c rest => simp [stop c rfl]

/-- A run of one class and what follows it are told apart. -/
theorem append_inj_of_run {α : Type} {p : α → Bool} {front front' rest rest' : List α}
    (each : ∀ c ∈ front, p c = true) (each' : ∀ c ∈ front', p c = true)
    (stop : ∀ c ∈ rest.head?, p c = false) (stop' : ∀ c ∈ rest'.head?, p c = false)
    (same : front ++ rest = front' ++ rest') : front = front' ∧ rest = rest' := by
  have run := takeWhile_run each stop
  rw [same, takeWhile_run each' stop'] at run
  subst run
  exact ⟨rfl, List.append_cancel_left same⟩

namespace Text

/-- Ranges that have no code point in common. -/
def Ranges.apart (first second : Ranges) : Bool :=
  first.all fun range => second.all fun range' => range.2.blt range'.1 || range'.2.blt range.1

theorem Ranges.holds_of_apart {first second : Ranges} (apart : first.apart second = true) {c : CodePoint}
    (member : first.holds c = true) : second.holds c = false := by
  rw [← Bool.not_eq_true]
  intro member'
  obtain ⟨range, listed, low, high⟩ := Ranges.holds_iff.mp member
  obtain ⟨range', listed', low', high'⟩ := Ranges.holds_iff.mp member'
  have gap := List.all_eq_true.mp (List.all_eq_true.mp apart range listed) range' listed'
  simp only [Bool.or_eq_true, Nat.blt_eq] at gap
  omega

/-- The code points of the decimal digits outside ASCII. -/
def foreignDigits : Ranges :=
  foreignZeros.map fun least => (least, least + 9)

theorem foreignLetters_apart : foreignLetters.apart (foreignDigits ++ digitSigns) = true := by
  decide +kernel

theorem ascii_apart : Ranges.apart [(0, 127)] digitSigns = true := by
  decide

theorem holds_of_decimalValue? {c : CodePoint} {value : Nat} (foreign : ¬ c.toNat < 128)
    (found : decimalValue? c = some value) : foreignDigits.holds c = true := by
  rw [decimalValue?, if_neg foreign] at found
  obtain ⟨least, hit, -⟩ := Option.map_eq_some_iff.mp found
  have inside := List.find?_some hit
  simp only [Bool.and_eq_true, decide_eq_true_eq] at inside
  apply Ranges.holds_iff.mpr
  refine ⟨(least, least + 9), List.mem_map_of_mem (List.mem_of_find?_eq_some hit), ?_⟩
  constructor
  · exact inside.1
  · exact Nat.le_of_lt_succ inside.2

theorem Ranges.holds_append {first second : Ranges} {c : CodePoint} :
    Ranges.holds (first ++ second) c = (first.holds c || second.holds c) := by
  simp [Ranges.holds]

theorem isDigit_of_isLetter {c : CodePoint} (letter : isLetter c = true) : isDigit c = false := by
  by_cases ascii : c.toNat < 128
  · have inside : Ranges.holds [(0, 127)] c = true := by
      simp [Ranges.holds]
      omega
    have other : (48 ≤ c.toNat && c.toNat ≤ 57) = false := by
      simp only [isLetter, if_pos ascii, Bool.or_eq_true, Bool.and_eq_true, decide_eq_true_eq]
        at letter
      simp only [Bool.and_eq_false_iff, decide_eq_false_iff_not]
      omega
    rw [isDigit, Ranges.holds_of_apart ascii_apart inside, decimalValue?, if_pos ascii, other]
    rfl
  · rw [isLetter, if_neg ascii] at letter
    have outside := Ranges.holds_of_apart foreignLetters_apart letter
    rw [Ranges.holds_append, Bool.or_eq_false_iff] at outside
    cases found : decimalValue? c with
    | none => simp [isDigit, found, outside.2]
    | some value =>
      rw [holds_of_decimalValue? ascii found] at outside
      cases outside.1

end Text

end StyleExpr
