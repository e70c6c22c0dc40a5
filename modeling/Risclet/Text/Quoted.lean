import Risclet.Text.Display

/-! # Quoted text

A string literal stands between double quotes; inside it a backslash makes an escape with the
character after it.  Four escapes exist: for the double quote, the backslash, the line feed and the
tab.  `quote` writes a text as such a literal and `decode` reads the characters between the quotes.

The assembler reads the same notation in its own way: whatever follows a backslash, the pair is one
byte.  `byteCount` is the size it gives to a literal.
-/
namespace Risclet
namespace Text
namespace Quoted

/-- What can be wrong between the quotes. -/
inductive Fault where
  /-- The backslash at `offset` is followed by a character that makes no escape. -/
  | unknownEscape (offset : Nat) (c : Char)
  /-- The text ends in a backslash that nothing follows. -/
  | dangling
deriving DecidableEq, Repr

/-- How a character is written between the quotes. -/
def encodeChar (c : Char) : List Char :=
  if c = '\\' then ['\\', '\\']
  else if c = doubleQuote then ['\\', doubleQuote]
  else if c = '\n' then ['\\', 'n']
  else if c = '\t' then ['\\', 't']
  else [c]

/-- How a text is written between the quotes. -/
def encode (cs : List Char) : List Char :=
  cs.flatMap encodeChar

/-- The character that a backslash and `c` stand for. -/
def escape? (c : Char) : Option Char :=
  if c = doubleQuote then some doubleQuote
  else if c = '\\' then some '\\'
  else if c = 'n' then some '\n'
  else if c = 't' then some '\t'
  else none

/-- Reads what stands between the quotes, where `offset` characters precede it. -/
def decodeFrom (offset : Nat) : List Char → Except Fault (List Char)
  | [] => .ok []
  | '\\' :: [] => .error .dangling
  | '\\' :: c :: rest =>
    match escape? c with
    | none => .error (.unknownEscape offset c)
    | some d => (decodeFrom (offset + 2) rest).map (d :: ·)
  | c :: rest => (decodeFrom (offset + 1) rest).map (c :: ·)

/-- Reads what stands between the quotes. -/
def decode (cs : List Char) : Except Fault (List Char) :=
  decodeFrom 0 cs

/-- A text as a string literal. -/
def quote (s : String) : String :=
  String.ofList (doubleQuote :: (encode s.toList ++ [doubleQuote]))

/-- The bytes that characters between quotes assemble to: one for a backslash with the character
after it, if that is no line feed, and those of its encoding for any other character. -/
def bodyByteCount : List Char → Nat
  | [] => 0
  | '\\' :: [] => 1
  | '\\' :: c :: rest => if c = '\n' then 2 + bodyByteCount rest else 1 + bodyByteCount rest
  | c :: rest => c.utf8Size + bodyByteCount rest

/-- The bytes that a literal assembles to.  Its first and last character are taken for quotes. -/
def byteCount (literal : String) : Nat :=
  bodyByteCount (literal.toList.drop 1).dropLast

/-- Characters between quotes with a mark in the place of each backslash and the character after it,
if that is no line feed. -/
def collapse : List Char → List Char
  | [] => []
  | '\\' :: [] => ['\\']
  | '\\' :: c :: rest => if c = '\n' then '\\' :: c :: collapse rest else '_' :: collapse rest
  | c :: rest => c :: collapse rest

@[simp] theorem encode_nil : encode [] = [] := rfl

@[simp] theorem encode_cons (c : Char) (cs : List Char) :
    encode (c :: cs) = encodeChar c ++ encode cs := by
  simp [encode]

end Quoted
end Text
end Risclet
