import StyleExpr.Session

/-! What the lines of a session owe to each other. A line is answered from its text, its number and the
modes, and the modes are all that the lines in front of it leave behind: each of the two was switched as
often as its command was given. -/

namespace StyleExpr.Session

open Text (line lines)

/-- Leaving needs one of two exact words, between any blanks. -/
def leaves (text : Text) : Bool :=
  let word := Text.trimmed text
  word = "exit" || word = "quit"

/-- The lines that a session reads in front of the one that leaves, or of the end. -/
def linesRead (input : List Text) : List Text :=
  input.takeWhile fun text => !leaves text

/-- What a line answers that does not leave: nothing if it is blank, else the acknowledgement of its
command or what became of its expression. -/
def answer (modes : Modes) (number : Nat) (text : Text) : Text :=
  if Text.trimmed text = "" then ""
  else match command? text with
    | some command => acknowledgement (apply modes command) command
    | none => evaluate modes number text

def modesAfter (modes : Modes) (text : Text) : Modes :=
  match command? text with
  | some command => apply modes command
  | none => modes

def switched (command : Command) (earlier : List Text) : Bool :=
  decide (earlier.countP (fun text => command? text = some command) % 2 = 1)

/-- The modes behind some lines of a session, told by counting commands. -/
def modesBehind (verbose : Bool) (earlier : List Text) : Modes :=
  ⟨verbose ^^ switched .verbose earlier, switched .tokens earlier⟩

theorem command?_of_blank {text : Text} (blank : Text.trimmed text = "") :
    command? text = none := by
  have trimmed : Text.trimmedOf Text.isBlank text.toList = [] :=
    Text.ofList_inj.mp blank
  rw [command?, trimmed]
  rfl

theorem effect_eq (modes : Modes) (number : Nat) (text : Text) :
    effect modes number text =
      if leaves text then .leave else .answer (answer modes number text) (modesAfter modes text) := by
  unfold effect leaves answer modesAfter
  by_cases blank : Text.trimmed text = ""
  · simp [blank, command?_of_blank blank]
  · cases command? text <;> simp [blank]

theorem switched_concat (command : Command) (earlier : List Text) (text : Text) :
    switched command (earlier ++ [text]) =
      (switched command earlier ^^ decide (command? text = some command)) := by
  unfold switched
  rw [List.countP_append]
  by_cases given : command? text = some command
  · have one : [text].countP (fun text => command? text = some command) = 1 := by simp [given]
    rw [one, Nat.add_mod]
    generalize (earlier.countP fun text => command? text = some command) = count
    rcases Nat.mod_two_eq_zero_or_one count with even | odd
    · simp [given, even]
    · simp [given, odd]
  · simp [given]

/-- A line takes the modes that the count of commands tells to those that it tells behind the line. -/
theorem modesAfter_modesBehind (verbose : Bool) (earlier : List Text) (text : Text) :
    modesAfter (modesBehind verbose earlier) text = modesBehind verbose (earlier ++ [text]) := by
  unfold modesAfter modesBehind
  rw [switched_concat, switched_concat]
  cases given : command? text with
  | none => simp
  | some command => cases command <;> simp [apply]

/-- What a session ends in. At the end of the input a line feed ends the line of the prompt. -/
def ending (input : List Text) : Text :=
  prompt ++ (if input.any leaves then "" else "\n") ++ farewell

theorem transcript_modesBehind (verbose : Bool) (earlier input : List Text) :
    transcript (modesBehind verbose earlier) (earlier.length + 1) input =
      Text.join ((linesRead input).mapIdx fun index text =>
          prompt ++ answer (modesBehind verbose (earlier ++ (linesRead input).take index))
            (index + (earlier.length + 1)) text) ++
        ending input := by
  induction input generalizing earlier with
  | nil => rfl
  | cons text rest ih =>
    rw [transcript, effect_eq]
    cases leaving : leaves text with
    | true => simp [linesRead, ending, leaving]
    | false =>
      have onward := ih (earlier ++ [text])
      rw [← modesAfter_modesBehind, List.length_append, List.length_singleton] at onward
      have kept : linesRead (text :: rest) = text :: linesRead rest :=
        List.takeWhile_cons_of_pos (by rw [leaving]; rfl)
      have last : ending (text :: rest) = ending rest := by simp [ending, leaving]
      have number (index : Nat) :
          index + 1 + (earlier.length + 1) = index + (earlier.length + 1 + 1) := by omega
      have behind (index : Nat) : earlier ++ text :: (linesRead rest).take index =
          earlier ++ [text] ++ (linesRead rest).take index := List.append_cons ..
      simp only [kept, last, List.mapIdx_cons, Text.join_cons, List.take_succ_cons, List.take_zero,
        List.append_nil, behind, Nat.zero_add, number, Bool.false_eq_true, ↓reduceIte]
      rw [onward]
      simp only [Text.append_assoc]

/-- A session is local to its lines. It ends at the first line that leaves, or else at the end of the
input, and what it shows for a line depends on nothing but the text of the line, its number and the
modes, which are told by how often each command was given before. No other line changes a mode. -/
theorem run_lines (verbose : Bool) (input : List Text) :
    run verbose input =
        greeting ++
          Text.join ((linesRead input).mapIdx fun index text =>
            prompt ++ answer (modesBehind verbose ((linesRead input).take index)) (index + 1) text) ++
          ending input ∧
      ∀ modes number text, effect modes number text =
        if leaves text then .leave
        else .answer (answer modes number text) (modesAfter modes text) := by
  refine ⟨?_, effect_eq⟩
  have whole := transcript_modesBehind verbose [] input
  have start : modesBehind verbose [] = ⟨verbose, false⟩ := by simp [modesBehind, switched]
  simp only [start, List.length_nil, Nat.zero_add, List.nil_append] at whole
  rw [run, whole, Text.append_assoc]

/-- A command, a blank line and a line with a fault, in front of one that leaves. -/
example : run false [" Tokens-MODE", "", "(1", " quit ", "2"] =
    greeting ++ prompt ++ line "[mode] >>> Tokens mode ON" ++ prompt ++ prompt ++
      lines ["[token] >>> Token(lparen, ()", "[token] >>> Token(number, 1)",
        "[error] >>> Expected rparen token, was end of text. (line 3, offset 3)"] ++
      prompt ++ farewell := by
  decide +kernel

end StyleExpr.Session
