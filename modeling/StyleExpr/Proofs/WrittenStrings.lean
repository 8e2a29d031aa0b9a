import StyleExpr.Proofs.Source.Transcript

/-! Strings survive being written, whatever they hold and whatever comes behind them. The backslash in
front of each mark keeps the text from closing early, and the closing quote keeps it from running on. -/

namespace StyleExpr

open Lexeme

/-- A text with every occurrence of a character replaced. -/
def Text.replaced (mark : CodePoint) (spelling text : List CodePoint) : List CodePoint :=
  text.flatMap fun c => if c = mark then spelling else [c]

theorem Text.replaced_cons (mark : CodePoint) (spelling : List CodePoint) (c : CodePoint)
    (text : List CodePoint) :
    replaced mark spelling (c :: text) =
      (if c = mark then spelling else [c]) ++ replaced mark spelling text := rfl

/-- To escape a text is to double its backslashes, and then to put one in front of each quote. In this
order no backslash that was put in front of a quote is doubled. -/
theorem Canonical.escaped_eq_replaced (text : List CodePoint) :
    escaped text =
      Text.replaced '\x22' ['\\', '\x22'] (Text.replaced '\\' ['\\', '\\'] text) := by
  induction text with
  | nil => rfl
  | cons c text ih =>
    rw [escaped, Text.replaced_cons]
    by_cases slash : c = scalar '\\'
    · subst slash
      simp [Text.replaced_cons, ih]
    · by_cases quote : c = scalar '\x22'
      · subst quote
        simp [Text.replaced_cons, ih]
      · simp [Text.replaced_cons, slash, quote, ih]

theorem Canonical.toList_string (content : Text) :
    (string content).toList = scalar '\x22' :: escaped content.toList ++ [scalar '\x22'] := by
  rw [string, Text.toList_ofList]

/-- What is written for a string is the string in quotes, with its backslashes doubled and a backslash
in front of each of its quotes. Any text that begins with it has the string as its first token, and is
left right behind the closing quote, so the tokens of what follows come as they do without it. -/
theorem written_string_survives (content rest : Text) (start : Position) :
    let written := Canonical.string content
    let behind := start.afterAll written.toList
    let token : Token := ⟨.string, .text content, start, none⟩
    written.toList = scalar '\x22' ::
        Text.replaced '\x22' ['\\', '\x22'] (Text.replaced '\\' ['\\', '\\'] content.toList) ++
          [scalar '\x22'] ∧
      TokenSource.next (Lexer.ofText (written ++ rest) start) =
        .ok (some token) ⟨⟨written.toList.reverse, rest.toList, behind⟩, none⟩ ∧
      tokenize (written ++ rest) start = (tokenize rest behind).map (token :: ·) := by
  intro written behind token
  have spelled : written.toList = scalar '\x22' :: Canonical.escaped content.toList ++ [scalar '\x22'] :=
    Canonical.toList_string content
  have reads : Reads written.toList rest.toList token.lexeme := by
    have reads := reads_string content.toList rest.toList
    rwa [← spelled, Text.ofList_toList] at reads
  refine ⟨?_, ?_, ?_⟩
  · rw [spelled, Canonical.escaped_eq_replaced]
  · have found := Cursor.nextToken_reads reads [] start
    rw [List.append_nil] at found
    have looked : TokenSource.peek (Lexer.ofText (written ++ rest) start) =
        .ok (some token) ⟨⟨written.toList.reverse, rest.toList, behind⟩, some token⟩ := by
      rw [Lexer.ofText, Cursor.start, Text.toList_append]
      exact Lexer.peek_ok found
    exact TokenSource.next_of_token looked
  · obtain ⟨tokens, ending, transcript⟩ := exists_transcript rest.toList behind
    have whole : Transcript (written ++ rest).toList start (token :: tokens) ending := by
      rw [Text.toList_append]
      exact transcript.token reads
    rw [whole.tokenize_eq, transcript.tokenize_eq]
    cases ending <;> rfl

end StyleExpr
