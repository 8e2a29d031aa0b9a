import StyleExpr.Text.Hexadecimal

/-! Bytes decoded as UTF-8, with the place and the reason where they are no such text. -/

namespace StyleExpr.Text

inductive Utf8Reason where
  | invalidStart
  | invalidContinuation
  | unexpectedEnd
  deriving DecidableEq

/-- The bytes from `first` to `last` do not encode a character. -/
structure Utf8Fault where
  reason : Utf8Reason
  first : Nat
  last : Nat
  /-- The byte at `first`. -/
  byte : Nat
  deriving DecidableEq

def Utf8Reason.message : Utf8Reason → Text
  | invalidStart => "invalid start byte"
  | invalidContinuation => "invalid continuation byte"
  | unexpectedEnd => "unexpected end of data"

/-- A single byte is named; of several only the range is given. -/
def Utf8Fault.message (fault : Utf8Fault) : Text :=
  let place : Text :=
    if fault.first = fault.last then
      "byte 0x" ++ Text.ofList (hexadecimal 2 fault.byte) ++ " in position " ++
        toString fault.first
    else "bytes in position " ++ toString fault.first ++ "-" ++ toString fault.last
  "'utf-8' codec can't decode " ++ place ++ ": " ++ fault.reason.message

/-- A character of which the first bytes were read. -/
structure Utf8Partial where
  first : Nat
  byte : Nat
  /-- The bits read so far. -/
  bits : Nat
  /-- How many bytes are missing. -/
  owed : Nat
  /-- The range of the next byte. -/
  low : Nat
  high : Nat

/-- The character that a first byte begins. Bytes that would begin an encoding that is too long, a
surrogate or a code point that is too large are refused here or by the range of the second byte. -/
def utf8Start? (index byte : Nat) : Option Utf8Partial :=
  if 0xC2 ≤ byte && byte ≤ 0xDF then some ⟨index, byte, byte - 0xC0, 1, 0x80, 0xBF⟩
  else if byte = 0xE0 then some ⟨index, byte, 0, 2, 0xA0, 0xBF⟩
  else if byte = 0xED then some ⟨index, byte, 0xD, 2, 0x80, 0x9F⟩
  else if 0xE1 ≤ byte && byte ≤ 0xEF then some ⟨index, byte, byte - 0xE0, 2, 0x80, 0xBF⟩
  else if byte = 0xF0 then some ⟨index, byte, 0, 3, 0x90, 0xBF⟩
  else if byte = 0xF4 then some ⟨index, byte, 4, 3, 0x80, 0x8F⟩
  else if 0xF1 ≤ byte && byte ≤ 0xF3 then some ⟨index, byte, byte - 0xF0, 3, 0x80, 0xBF⟩
  else none

/-- Decodes bytes from an index on, the first of them possibly inside a character. -/
def decodeUtf8From (index : Nat) (open? : Option Utf8Partial) :
    List Nat → Except Utf8Fault (List Char)
  | [] =>
    match open? with
    | none => .ok []
    | some begun => .error ⟨.unexpectedEnd, begun.first, index - 1, begun.byte⟩
  | byte :: rest =>
    match open? with
    | none =>
      if byte < 0x80 then (decodeUtf8From (index + 1) none rest).map (Char.ofNat byte :: ·)
      else match utf8Start? index byte with
        | some begun => decodeUtf8From (index + 1) (some begun) rest
        | none => .error ⟨.invalidStart, index, index, byte⟩
    | some begun =>
      if begun.low ≤ byte && byte ≤ begun.high then
        let bits := begun.bits * 64 + (byte - 0x80)
        if begun.owed = 1 then (decodeUtf8From (index + 1) none rest).map (Char.ofNat bits :: ·)
        else
          let begun := { begun with bits, owed := begun.owed - 1, low := 0x80, high := 0xBF }
          decodeUtf8From (index + 1) (some begun) rest
      else .error ⟨.invalidContinuation, begun.first, index - 1, begun.byte⟩

def decodeUtf8 (bytes : List Nat) : Except Utf8Fault (List Char) :=
  decodeUtf8From 0 none bytes

/-- Each carriage return becomes a line feed, together with a line feed behind it. -/
def unifiedLines : List Char → List Char
  | [] => []
  | '\r' :: '\n' :: rest => '\n' :: unifiedLines rest
  | '\r' :: rest => '\n' :: unifiedLines rest
  | c :: rest => c :: unifiedLines rest

end StyleExpr.Text
