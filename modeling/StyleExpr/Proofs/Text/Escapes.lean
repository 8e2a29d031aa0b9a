import StyleExpr.Proofs.Lexeme.Written
import StyleExpr.Text.Quoted

/-! Quoted texts read back. Each character is read off its escape, whatever comes behind that, so a quoted
text tells both its content and where it ends. -/

namespace StyleExpr

/-- Items that are told by their texts, given what follows, are told by these texts one after another, up
to a text that begins as none of them. `view` is what is told of an item. -/
theorem flatMap_append_inj {α β : Type} {write : α → List CodePoint} (view : α → β)
    (ends : List CodePoint → Prop) (close : List CodePoint) {rest rest' : List CodePoint}
    {items items' : List α}
    (opens : ∀ item rest rest', write item ++ rest ≠ close ++ rest')
    (closed : ∀ rest, ends (close ++ rest)) (continued : ∀ item rest, ends (write item ++ rest))
    (told : ∀ item ∈ items, ∀ item' ∈ items', ∀ rest rest', ends rest → ends rest' →
      write item ++ rest = write item' ++ rest' → view item = view item' ∧ rest = rest')
    (same : items.flatMap write ++ (close ++ rest) = items'.flatMap write ++ (close ++ rest')) :
    items.map view = items'.map view ∧ rest = rest' := by
  have follows (items : List α) (rest : List CodePoint) : ends (items.flatMap write ++ (close ++ rest)) := by
    cases items with
    | nil => exact closed rest
    | cons item items =>
      rw [List.flatMap_cons, List.append_assoc]
      exact continued item _
  induction items generalizing items' with
  | nil =>
    cases items' with
    | nil => exact ⟨rfl, List.append_cancel_left same⟩
    | cons item' items' =>
      rw [List.flatMap_cons, List.append_assoc] at same
      exact (opens item' _ _ same.symm).elim
  | cons item items ih =>
    cases items' with
    | nil =>
      rw [List.flatMap_cons, List.append_assoc] at same
      exact (opens item _ _ same).elim
    | cons item' items' =>
      rw [List.flatMap_cons, List.flatMap_cons, List.append_assoc, List.append_assoc] at same
      obtain ⟨here, behind⟩ := told item (List.mem_cons_self ..) item' (List.mem_cons_self ..) _ _
        (follows items rest) (follows items' rest') same
      obtain ⟨others, ended⟩ := ih (fun item member item' member' => told item
        (List.mem_cons_of_mem _ member) item' (List.mem_cons_of_mem _ member')) behind
      rw [List.map_cons, List.map_cons, here, others]
      exact ⟨rfl, ended⟩

namespace Text

/-- The last digit comes behind the numeral of the others. -/
theorem hexadecimal_succ {width : Nat} (some : 0 < width) (n : Nat) :
    hexadecimal (width + 1) n = hexadecimal width (n / 16) ++ [scalar (n % 16).digitChar] := by
  by_cases single : n < 16
  · have fill : List.replicate width (scalar '0') =
        List.replicate (width - 1) (scalar '0') ++ [scalar '0'] := by
      rw [← List.replicate_succ', Nat.sub_add_cancel some]
    simp only [hexadecimal, Nat.div_eq_of_lt single, Nat.mod_eq_of_lt single,
      Text.digits_of_lt_base single, Text.digits_of_lt_base (show 0 < 16 by decide),
      List.length_singleton, Nat.add_sub_cancel, fill]
    rfl
  · simp only [hexadecimal, Text.digits_of_base_le (show 1 < 16 by decide) (Nat.not_lt.mp single),
      List.length_append, List.length_singleton, Nat.add_sub_add_right, List.append_assoc]

def codeOf (digits : List CodePoint) : Nat :=
  digits.foldl (fun code digit => 16 * code + (hexValue? digit).getD 0) 0

theorem codeOf_concat (digits : List CodePoint) (digit : CodePoint) :
    codeOf (digits ++ [digit]) = 16 * codeOf digits + (hexValue? digit).getD 0 := by
  simp [codeOf, List.foldl_append]

/-- A numeral that needs no more than its least width has this width, and tells its number. -/
theorem hexadecimal_spec (width : Nat) {n : Nat} (small : n < 16 ^ (width + 1)) :
    (hexadecimal (width + 1) n).length = width + 1 ∧ codeOf (hexadecimal (width + 1) n) = n := by
  induction width generalizing n with
  | zero =>
    have digit : n < 16 := small
    simp [hexadecimal, Text.digits_of_lt_base digit, codeOf, (Lexeme.hexDigits n digit).1]
  | succ width ih =>
    obtain ⟨long, code⟩ := ih (show n / 16 < 16 ^ (width + 1) by rw [Nat.pow_succ] at small; omega)
    have digit := (Lexeme.hexDigits (n % 16) (Nat.mod_lt _ (by decide))).1
    rw [hexadecimal_succ (Nat.succ_pos width), codeOf_concat, code, digit, List.length_append, long]
    exact ⟨rfl, Nat.div_add_mod n 16⟩

def marked : CodePoint → CodePoint
  | scalar 't' => scalar '\t'
  | scalar 'n' => scalar '\n'
  | scalar 'r' => scalar '\r'
  | mark => mark

def readCode (width : Nat) (text : List CodePoint) : Option (CodePoint × List CodePoint) :=
  some (CodePoint.ofNat (codeOf (text.take width)), text.drop width)

def readChar : List CodePoint → Option (CodePoint × List CodePoint)
  | scalar '\\' :: scalar 'x' :: rest => readCode 2 rest
  | scalar '\\' :: scalar 'u' :: rest => readCode 4 rest
  | scalar '\\' :: scalar 'U' :: rest => readCode 8 rest
  | scalar '\\' :: mark :: rest => some (marked mark, rest)
  | c :: rest => some (c, rest)
  | [] => none

variable {c quote : CodePoint} {rest rest' content content' : List CodePoint}

theorem readCode_hexadecimal (width : Nat) (small : c.toNat < 16 ^ (width + 1)) (rest : List CodePoint) :
    readCode (width + 1) (hexadecimal (width + 1) c.toNat ++ rest) = some (c, rest) := by
  obtain ⟨long, code⟩ := hexadecimal_spec width small
  rw [readCode, List.take_left' long, List.drop_left' long, code, CodePoint.ofNat_toNat]

theorem readChar_codeEscape (c : CodePoint) (rest : List CodePoint) :
    readChar (codeEscape c ++ rest) = some (c, rest) := by
  have bounded : c.toNat < 16 ^ 8 := Nat.lt_trans c.toNat_lt (by decide)
  simp only [codeEscape]
  split
  · next short => exact readCode_hexadecimal 1 short rest
  split
  · next short => exact readCode_hexadecimal 3 short rest
  · exact readCode_hexadecimal 7 bounded rest

theorem readChar_quotedChar (delimits : quote ∈ [scalar '\x27', scalar '\x22']) (c : CodePoint)
    (rest : List CodePoint) :
    readChar (quotedChar quote c ++ rest) = some (c, rest) := by
  unfold quotedChar
  split
  · next mark =>
    simp only [List.mem_cons, List.not_mem_nil, or_false, Bool.or_eq_true, decide_eq_true_eq]
      at delimits mark
    rcases mark with rfl | rfl
    · rcases delimits with rfl | rfl <;> rfl
    · rfl
  split
  · next mark => rw [mark]; rfl
  split
  · next mark => rw [mark]; rfl
  split
  · next mark => rw [mark]; rfl
  split
  · next plain _ _ _ _ =>
    have other : c ≠ scalar '\\' := fun slash => plain (by simp [slash])
    unfold readChar
    split <;> simp_all
  · exact readChar_codeEscape c rest

/-- Characters are told by their escapes, and so is where they end, in front of a mark that opens none of
the escapes. -/
theorem escapes_append_inj {escape : CodePoint → List CodePoint}
    {read : List CodePoint → Option (CodePoint × List CodePoint)}
    (reads : ∀ c ∈ content ++ content', ∀ rest, read (escape c ++ rest) = some (c, rest))
    (opens : ∀ c rest rest', escape c ++ rest ≠ quote :: rest')
    (same : content.flatMap escape ++ quote :: rest = content'.flatMap escape ++ quote :: rest') :
    content = content' ∧ rest = rest' := by
  have told : ∀ c ∈ content, ∀ c' ∈ content', ∀ rest rest', True → True →
      escape c ++ rest = escape c' ++ rest' → id c = id c' ∧ rest = rest' := by
    intro c member c' member' rest rest' _ _ same
    have back := reads c (List.mem_append_left _ member) rest
    rw [same, reads c' (List.mem_append_right _ member')] at back
    obtain ⟨rfl, rfl⟩ := Prod.mk.inj (Option.some.inj back)
    exact ⟨rfl, rfl⟩
  obtain ⟨alike, ended⟩ := flatMap_append_inj id (fun _ => True) [quote] opens (fun _ => trivial)
    (fun _ _ => trivial) told same
  rw [List.map_id, List.map_id] at alike
  exact ⟨alike, ended⟩

/-- No escape begins as the quoted text ends. -/
theorem quotedChar_opens (delimits : quote ∈ [scalar '\x27', scalar '\x22']) (c : CodePoint)
    (rest rest' : List CodePoint) :
    quotedChar quote c ++ rest ≠ quote :: rest' := by
  intro same
  have read := readChar_quotedChar delimits c rest
  have closed : readChar (quote :: rest') = some (quote, rest') := by
    simp only [List.mem_cons, List.not_mem_nil, or_false] at delimits
    rcases delimits with rfl | rfl <;> rfl
  rw [same, closed] at read
  obtain ⟨rfl, rfl⟩ := Prod.mk.inj (Option.some.inj read)
  simp [quotedChar] at same

theorem delimiter_mem (text : List CodePoint) : delimiter text ∈ [scalar '\x27', scalar '\x22'] := by
  unfold delimiter
  split <;> decide

theorem quoted_append_inj {content content' : Text}
    (same : (quoted content).toList ++ rest = (quoted content').toList ++ rest') :
    content = content' ∧ rest = rest' := by
  simp only [quoted, quotedChars, Text.toList_ofList, List.append_assoc, List.cons_append,
    List.nil_append, List.cons.injEq] at same
  obtain ⟨quote, behind⟩ := same
  rw [← quote] at behind
  have delimits := delimiter_mem content.toList
  obtain ⟨chars, rfl⟩ :=
    escapes_append_inj (fun c _ => readChar_quotedChar delimits c) (quotedChar_opens delimits) behind
  exact ⟨Text.toList_inj.mp chars, rfl⟩

end Text

end StyleExpr
