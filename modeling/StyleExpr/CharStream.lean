import StyleExpr.Cursor

/-! A stream of the characters of a text that can be opened at any index, also in front of the text
or behind its end. Opened inside the text it answers as a cursor there does: `stream_peek`,
`stream_atEnd` and `stream_next`. -/

namespace StyleExpr

structure CharStream where
  source : List CodePoint
  /-- The index of the next character. A negative one counts from the end of the text. -/
  index : Int
  position : Position
  deriving DecidableEq

namespace CharStream

inductive Fault where
  | ended (position : Position)
  /-- The index lies in front of the text, even counted from its end. -/
  | outOfRange
  /-- The index is below all that a signed word of 64 bits can hold. -/
  | outOfWord
  deriving DecidableEq

def Fault.message : Fault → Text
  | ended _ => Problem.endOfText.message
  | outOfRange => "string index out of range"
  | outOfWord => "cannot fit 'int' into an index-sized integer"

def atEnd (stream : CharStream) : Bool :=
  stream.source.length ≤ stream.index

/-- The character at a distance from the index, if that is inside the text. Here a negative index
does not count from the end. -/
def peek (stream : CharStream) (distance : Int) : Option CodePoint :=
  match stream.index + distance with
  | .ofNat n => stream.source[n]?
  | .negSucc _ => none

def upcoming? (stream : CharStream) : Option CodePoint :=
  match stream.index with
  | .ofNat n => stream.source[n]?
  | .negSucc n => stream.source.reverse[n]?

/-- Why no character is read next where there is none. -/
def missing (stream : CharStream) : Fault :=
  if stream.atEnd then .ended stream.position
  else if stream.index < -2 ^ 63 then .outOfWord
  else .outOfRange

/-- Reads the next character. Without one the stream stays as it is. -/
def next : EStateM Fault CharStream CodePoint := fun stream =>
  match stream.upcoming? with
  | some c => .ok c ⟨stream.source, stream.index + 1, stream.position.after c⟩
  | none => .error stream.missing stream

end CharStream

namespace Cursor

def stream (cursor : Cursor) : CharStream :=
  ⟨cursor.source, cursor.index, cursor.position⟩

theorem stream_peek (cursor : Cursor) (distance : Int) :
    cursor.stream.peek distance = cursor.peek distance := by
  rcases cursor with ⟨behind, ahead, position⟩
  cases distance with
  | ofNat n =>
    change (behind.reverse ++ ahead)[behind.length + n]? = ahead[n]?
    simp [List.getElem?_append_right]
  | negSucc n =>
    by_cases inside : n < behind.length
    · have place : (behind.length : Int) + .negSucc n = .ofNat (behind.length - 1 - n) := by
        simp only [Int.negSucc_eq, Int.ofNat_eq_natCast]
        omega
      simp only [CharStream.peek, stream, index, source, place, peek]
      rw [List.getElem?_append_left (by rw [List.length_reverse]; omega),
        List.getElem?_reverse (by omega)]
      congr 1
      omega
    · have place : (behind.length : Int) + .negSucc n = .negSucc (n - behind.length) := by
        simp only [Int.negSucc_eq]
        omega
      simp only [CharStream.peek, stream, index, place, peek]
      rw [List.getElem?_eq_none (by omega)]

theorem stream_atEnd (cursor : Cursor) : cursor.stream.atEnd = cursor.atEnd := by
  have lengths : cursor.source.length = cursor.behind.length + cursor.ahead.length := by
    simp [source]
  rw [Bool.eq_iff_iff, CharStream.atEnd, atEnd, decide_eq_true_iff, List.isEmpty_iff_length_eq_zero]
  change (cursor.source.length : Int) ≤ cursor.behind.length ↔ cursor.ahead.length = 0
  omega

theorem stream_upcoming? (cursor : Cursor) : cursor.stream.upcoming? = cursor.ahead.head? := by
  change (cursor.behind.reverse ++ cursor.ahead)[cursor.behind.length]? = _
  simp [List.getElem?_append_right, List.head?_eq_getElem?]

theorem stream_next (cursor : Cursor) :
    cursor.stream.next = match cursor.next with
      | .ok c after => .ok c after.stream
      | .error _ unmoved => .error (.ended cursor.position) unmoved.stream := by
  rw [CharStream.next, stream_upcoming?]
  cases ahead : cursor.ahead with
  | nil =>
    simp only [next, ahead, CharStream.missing, List.head?_nil, stream_atEnd, atEnd,
      List.isEmpty_nil, if_true]
    rfl
  | cons c rest => simp [next, ahead, stream, skip, source, index]

end Cursor

end StyleExpr
