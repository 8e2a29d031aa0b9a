import StyleExpr.Proofs.Lexeme.Longest

/-! Quoted texts and colours, told without a scanner: what stands between two quotes, and which
digits write which channels. -/

namespace StyleExpr.Lexeme

open Text

/-- `Quoted body content`: the text between two quotes, and what it stands for. A quote inside is
escaped, and of each escape only the character behind the backslash counts. -/
inductive Quoted : List CodePoint → List CodePoint → Prop where
  | none : Quoted [] []
  | plain {c : CodePoint} {body content : List CodePoint} (other : c ≠ scalar '\x22' ∧ c ≠ scalar '\\')
      (others : Quoted body content) : Quoted (c :: body) (c :: content)
  | escaped {c : CodePoint} {body content : List CodePoint} (others : Quoted body content) :
      Quoted (scalar '\\' :: c :: body) (c :: content)

variable {body content text digits : List CodePoint} {high low c : CodePoint}

theorem Quoted.unescaped_eq (quoted : Quoted body content) : unescaped body = content := by
  induction quoted with
  | none => rfl
  | plain other _ ih =>
    rw [unescaped.eq_4, ih]
    · exact fun slash _ => other.2 slash
    · exact fun _ _ slash _ => other.2 slash
  | escaped _ ih => rw [unescaped, ih]

theorem Quoted.quotedBody?_eq (quoted : Quoted body content) (rest : List CodePoint) :
    quotedBody? (body ++ scalar '\x22' :: rest) = some body := by
  induction quoted with
  | none => rfl
  | plain other _ ih =>
    rw [List.cons_append, quotedBody?.eq_5, ih, Option.map_some]
    · exact other.1
    · exact fun slash _ => other.2 slash
    · exact fun _ _ slash _ => other.2 slash
  | escaped _ ih => simp [quotedBody?, ih]

/-- What is scanned behind a quote is quoted, and a quote follows it. -/
theorem quoted_of_quotedBody? (found : quotedBody? text = some body) :
    Quoted body (unescaped body) ∧ ∃ rest, text = body ++ scalar '\x22' :: rest := by
  induction text using quotedBody?.induct generalizing body with
  | case1 => cases found
  | case2 rest =>
    cases found
    exact ⟨.none, rest, rfl⟩
  | case3 => cases found
  | case4 c rest ih =>
    obtain ⟨inner, read, rfl⟩ := Option.map_eq_some_iff.mp found
    obtain ⟨quoted, tail, rfl⟩ := ih read
    exact ⟨.escaped quoted, tail, rfl⟩
  | case5 c rest quote last slash ih =>
    rw [quotedBody?.eq_5 _ _ quote last slash] at found
    obtain ⟨inner, read, rfl⟩ := Option.map_eq_some_iff.mp found
    obtain ⟨quoted, tail, rfl⟩ := ih read
    have other : c ≠ scalar '\\' := by
      rintro rfl
      cases inner with
      | nil => exact slash _ _ rfl rfl
      | cons => exact slash _ _ rfl rfl
    have plain : Quoted (c :: inner) (c :: unescaped inner) := .plain ⟨quote, other⟩ quoted
    rw [plain.unescaped_eq]
    exact ⟨plain, tail, rfl⟩

def HexDigit (c : CodePoint) (value : Nat) : Prop :=
  value < 16 ∧ (c = scalar value.digitChar ∨ c = scalar value.digitChar.toUpper)

instance {value : Nat} : Decidable (HexDigit c value) :=
  inferInstanceAs (Decidable (_ ∧ _))

def HexPair (high low : CodePoint) (value : Int) : Prop :=
  ∃ first second : Nat, HexDigit high first ∧ HexDigit low second ∧ value = 16 * first + second

/-- `HexColor digits channels`: six digits write red, green and blue by a pair each, and each of three
digits counts as a pair of the same. -/
inductive HexColor : List CodePoint → List Int → Prop where
  | six {r r' g g' b b' : CodePoint} {red green blue : Int} (first : HexPair r r' red)
      (second : HexPair g g' green) (third : HexPair b b' blue) :
      HexColor [r, r', g, g', b, b'] [red, green, blue]
  | three {r g b : CodePoint} {channels : List Int} (doubled : HexColor [r, r, g, g, b, b] channels) :
      HexColor [r, g, b] channels

theorem hexValue?_digitChar : ∀ value < 16, hexValue? value.digitChar = some value ∧
    hexValue? value.digitChar.toUpper = some value := by
  decide

theorem hexDigit_ofNat : ∀ n < 103, ∀ value ∈ hexValue? (Char.ofNat n),
    HexDigit (Char.ofNat n) value := by
  decide

theorem hexValue?_eq_some_iff {value : Nat} : hexValue? c = some value ↔ HexDigit c value := by
  constructor
  · intro found
    have small : c.toNat < 103 := by
      simp only [hexValue?, Bool.and_eq_true, decide_eq_true_eq] at found
      split at found
      · omega
      · split at found
        · omega
        · split at found
          · omega
          · cases found
    cases c with
    | surrogate index =>
      rw [CodePoint.toNat_surrogate] at small
      omega
    | scalar c =>
      have digit := hexDigit_ofNat c.toNat small
      rw [Char.ofNat_toNat] at digit
      exact digit value found
  · rintro ⟨small, rfl | rfl⟩
    · exact (hexValue?_digitChar value small).1
    · exact (hexValue?_digitChar value small).2

theorem hexPair_of_values {first second : Nat} (left : hexValue? high = some first)
    (right : hexValue? low = some second) : HexPair high low (16 * first + second) :=
  ⟨first, second, hexValue?_eq_some_iff.mp left, hexValue?_eq_some_iff.mp right, rfl⟩

theorem exists_cons_of_mapM {α β : Type} {f : α → Option β} {items : List α} {value : β}
    {values : List β} (found : items.mapM f = some (value :: values)) :
    ∃ item others, items = item :: others ∧ f item = some value ∧ others.mapM f = some values := by
  cases items with
  | nil => cases found
  | cons item others =>
    simp only [List.mapM_cons, Option.bind_eq_bind, Option.bind_eq_some_iff, Option.pure_def,
      Option.some.injEq, List.cons.injEq] at found
    obtain ⟨_, first, _, rest, rfl, rfl⟩ := found
    exact ⟨item, others, rfl, first, rest⟩

theorem eq_nil_of_mapM {α β : Type} {f : α → Option β} {items : List α}
    (found : items.mapM f = some []) : items = [] := by
  cases items with
  | nil => rfl
  | cons item others => simp [List.mapM_cons, Option.bind_eq_some_iff] at found

theorem hexColor_of_channels? {channels : List Int} (found : channels? digits = some channels) :
    HexColor digits channels := by
  unfold channels? at found
  split at found
  · next read =>
    cases found
    obtain ⟨r, _, rfl, red, read⟩ := exists_cons_of_mapM read
    obtain ⟨g, _, rfl, green, read⟩ := exists_cons_of_mapM read
    obtain ⟨b, _, rfl, blue, read⟩ := exists_cons_of_mapM read
    obtain rfl := eq_nil_of_mapM read
    have same (value : Nat) : (17 * value : Int) = 16 * value + value := by omega
    rw [same, same, same]
    exact .three (.six (hexPair_of_values red red) (hexPair_of_values green green)
      (hexPair_of_values blue blue))
  · next read =>
    cases found
    obtain ⟨r, _, rfl, red, read⟩ := exists_cons_of_mapM read
    obtain ⟨r', _, rfl, red', read⟩ := exists_cons_of_mapM read
    obtain ⟨g, _, rfl, green, read⟩ := exists_cons_of_mapM read
    obtain ⟨g', _, rfl, green', read⟩ := exists_cons_of_mapM read
    obtain ⟨b, _, rfl, blue, read⟩ := exists_cons_of_mapM read
    obtain ⟨b', _, rfl, blue', read⟩ := exists_cons_of_mapM read
    obtain rfl := eq_nil_of_mapM read
    exact .six (hexPair_of_values red red') (hexPair_of_values green green')
      (hexPair_of_values blue blue')
  · cases found

/-- A pair of one digit counts it once as sixteen and once as one. -/
theorem HexPair.twice {digit : CodePoint} {value : Int} (pair : HexPair digit digit value) :
    ∃ first : Nat, hexValue? digit = some first ∧ value = 17 * first := by
  obtain ⟨first, second, left, right, rfl⟩ := pair
  rw [← hexValue?_eq_some_iff] at left right
  obtain rfl := Option.some.inj (left.symm.trans right)
  exact ⟨first, left, by omega⟩

theorem channels?_eq_some_iff {channels : List Int} :
    channels? digits = some channels ↔ HexColor digits channels := by
  constructor
  · exact hexColor_of_channels?
  · intro color
    cases color with
    | six first second third =>
      obtain ⟨r, r', red, red', rfl⟩ := first
      obtain ⟨g, g', green, green', rfl⟩ := second
      obtain ⟨b, b', blue, blue', rfl⟩ := third
      rw [← hexValue?_eq_some_iff] at red red' green green' blue blue'
      simp [channels?, List.mapM_cons, red, red', green, green', blue, blue']
    | three doubled =>
      cases doubled with
      | six first second third =>
        obtain ⟨r, red, rfl⟩ := first.twice
        obtain ⟨g, green, rfl⟩ := second.twice
        obtain ⟨b, blue, rfl⟩ := third.twice
        simp [channels?, List.mapM_cons, red, green, blue]

end StyleExpr.Lexeme
