/-! # Reading UTF-8

Bytes are read as UTF-8 text or refused at the first place that cannot be: a byte that begins no
character, a character broken off by a byte that does not continue it, or one broken off by the end.
The refusal names the bytes from the first of the bad character to the last that belongs to it.
-/
namespace Risclet
namespace Text
namespace Utf8

/-- Why bytes are not text. -/
inductive Reason where
  | badStart
  | badContinuation
  | truncated
deriving DecidableEq, Repr

/-- The words for a reason. -/
def Reason.text : Reason → String
  | .badStart => "invalid start byte"
  | .badContinuation => "invalid continuation byte"
  | .truncated => "unexpected end of data"

/-- The first place where bytes are not text. -/
structure Fault where
  /-- The offset of the first byte of the bad character. -/
  start : Nat
  /-- The offset after the last byte that belongs to it. -/
  stop : Nat
  /-- The first byte of the bad character. -/
  first : UInt8
  reason : Reason
deriving DecidableEq, Repr

/-- A character of which some bytes are still to come. -/
structure Pending where
  /-- The offset of its first byte. -/
  start : Nat
  /-- Its first byte. -/
  first : UInt8
  /-- How many bytes come after the next one. -/
  left : Nat
  /-- The least byte that may come next. -/
  low : UInt8
  /-- The greatest byte that may come next. -/
  high : UInt8

/-- What a first byte announces. -/
inductive Lead where
  /-- A character of one byte. -/
  | single
  /-- A character of which one byte between `low` and `high` and `left` further ones follow. -/
  | multi (left : Nat) (low high : UInt8)
  /-- No character begins with this byte. -/
  | none

/-- Classifies a first byte.  The bounds on the second byte rule out overlong forms, surrogates and
code points beyond the last. -/
def lead (b : UInt8) : Lead :=
  if b < 0x80 then .single
  else if b < 0xC2 then .none
  else if b < 0xE0 then .multi 0 0x80 0xBF
  else if b = 0xE0 then .multi 1 0xA0 0xBF
  else if b = 0xED then .multi 1 0x80 0x9F
  else if b < 0xF0 then .multi 1 0x80 0xBF
  else if b = 0xF0 then .multi 2 0x90 0xBF
  else if b < 0xF4 then .multi 2 0x80 0xBF
  else if b = 0xF4 then .multi 2 0x80 0x8F
  else .none

/-- The first fault of the bytes from `offset` on, where `pending` is the character begun before. -/
def firstFault (offset : Nat) : Option Pending → List UInt8 → Option Fault
  | none, [] => none
  | some p, [] => some ⟨p.start, offset, p.first, .truncated⟩
  | none, b :: rest =>
    match lead b with
    | .single => firstFault (offset + 1) none rest
    | .multi left low high => firstFault (offset + 1) (some ⟨offset, b, left, low, high⟩) rest
    | .none => some ⟨offset, offset + 1, b, .badStart⟩
  | some p, b :: rest =>
    if p.low ≤ b ∧ b ≤ p.high then
      match p.left with
      | 0 => firstFault (offset + 1) none rest
      | left + 1 => firstFault (offset + 1) (some { p with left, low := 0x80, high := 0xBF }) rest
    else some ⟨p.start, offset, p.first, .badContinuation⟩

/-- Reads bytes as text.  Bytes that are no text have a first fault; it is given as the refusal. -/
def decode (bytes : ByteArray) : Except Fault String :=
  match String.fromUTF8? bytes with
  | some s => .ok s
  | none => .error ((firstFault 0 none bytes.toList).getD ⟨0, bytes.size, 0, .truncated⟩)

/-- The refusal in words: the bad byte with its offset, or the offsets of the first and the last of
several bad bytes. -/
def Fault.message (f : Fault) : String :=
  let place :=
    if f.stop = f.start + 1 then
      "byte 0x" ++ byteText f.first ++ " in position " ++ toString f.start
    else "bytes in position " ++ toString f.start ++ "-" ++ toString (f.stop - 1)
  "'utf-8' codec can't decode " ++ place ++ ": " ++ f.reason.text
where
  /-- A byte as two lower-case hexadecimal digits. -/
  byteText (b : UInt8) : String :=
    String.ofList [Nat.digitChar (b.toNat / 16), Nat.digitChar (b.toNat % 16)]

end Utf8
end Text
end Risclet
