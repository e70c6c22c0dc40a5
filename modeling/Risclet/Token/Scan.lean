import Risclet.Error
import Risclet.Text.Blank
import Risclet.Text.Digit
import Risclet.Text.Quoted
import Risclet.Text.Word
import Risclet.Token

/-! # Scanning source text

A source text is cut into *pieces* from left to right.  A piece is a run of blanks, a comment up
to the end of its line, a string between quotes, a run of digits, a name, or a single symbol;
each run is as long as it can be.  Blanks and comments are dropped, every other piece becomes a
token.

`nextPiece?` cuts one piece off, or finds that none begins there.  What it leaves is shorter
than what it was given (`nextPiece?_length`), so scanning ends.  Main statement: a piece's text
and what is left make up the text that was given (`nextPiece?_append`).
-/
namespace Risclet

open Text

/-- A piece of source text. -/
inductive Piece where
  /-- A run of blanks. -/
  | blank (text : List Char)
  /-- A comment, from its two slashes to the end of the line. -/
  | comment (text : List Char)
  /-- A string; `body` is what stands between the quotes. -/
  | string (body : List Char)
  /-- A run of digits. -/
  | number (text : List Char)
  /-- A name. -/
  | name (text : List Char)
  /-- A symbol of one character. -/
  | symbol (kind : TokenKind) (c : Char)
deriving DecidableEq, Repr

namespace Piece

/-- The characters of the source that a piece is made of. -/
def text : Piece → List Char
  | blank text | comment text | number text | name text => text
  | string body => doubleQuote :: (body ++ [doubleQuote])
  | symbol _ c => [c]

end Piece

/-- Cuts a string's body off, given what follows its opening quote: everything up to the next quote
that no backslash stands before.  A string does not go beyond its line. -/
def stringBody? : List Char → Option (List Char × List Char)
  | [] => none
  | '\\' :: [] => none
  | '\\' :: c :: rest =>
    if c = '\n' then none
    else (stringBody? rest).map (fun p => ('\\' :: c :: p.1, p.2))
  | c :: rest =>
    if c = doubleQuote then some ([], rest)
    else if c = '\n' then none
    else (stringBody? rest).map (fun p => (c :: p.1, p.2))

/-- Cuts the first piece off; `none` if no piece begins here. -/
def nextPiece? : List Char → Option (Piece × List Char)
  | [] => none
  | c :: cs =>
    if isBlank c then some (.blank (c :: cs.takeWhile isBlank), cs.dropWhile isBlank)
    else if c = '/' ∧ cs.head? = some '/' then
      some (.comment (c :: cs.takeWhile (· != '\n')), cs.dropWhile (· != '\n'))
    else if c = doubleQuote then
      (stringBody? cs).map (fun p => (.string p.1, p.2))
    else if isDigit c then some (.number (c :: cs.takeWhile isDigit), cs.dropWhile isDigit)
    else if isNameStart c then
      some (.name (c :: cs.takeWhile isWordChar), cs.dropWhile isWordChar)
    else (TokenKind.ofSymbol? c).map (fun k => (.symbol k c, cs))

/-! ## What a piece leaves -/

theorem stringBody?_append {cs body rest : List Char} (h : stringBody? cs = some (body, rest)) :
    body ++ doubleQuote :: rest = cs := by
  fun_induction stringBody? cs generalizing body with
  | case1 => simp at h
  | case2 => simp at h
  | case3 => simp at h
  | case4 c tail hc ih =>
    obtain ⟨⟨b, r⟩, hb, hp⟩ := Option.map_eq_some_iff.mp h
    obtain ⟨rfl, rfl⟩ := Prod.mk.inj hp
    simp [ih hb]
  | case5 tail =>
    obtain ⟨rfl, rfl⟩ := Prod.mk.inj (Option.some.inj h)
    rfl
  | case6 => simp at h
  | case7 c tail _ _ _ _ ih =>
    obtain ⟨⟨b, r⟩, hb, hp⟩ := Option.map_eq_some_iff.mp h
    obtain ⟨rfl, rfl⟩ := Prod.mk.inj hp
    simp [ih hb]

/-- **Nothing is lost.**  The characters of a piece and those left after it are the characters that
were given, in order. -/
theorem nextPiece?_append {cs rest : List Char} {piece : Piece}
    (h : nextPiece? cs = some (piece, rest)) : piece.text ++ rest = cs := by
  cases cs with
  | nil => simp [nextPiece?] at h
  | cons c cs =>
    rw [nextPiece?] at h
    split at h
    · obtain ⟨rfl, rfl⟩ := Prod.mk.inj (Option.some.inj h)
      simp [Piece.text]
    split at h
    · obtain ⟨rfl, rfl⟩ := Prod.mk.inj (Option.some.inj h)
      simp [Piece.text]
    split at h
    · next hc =>
      obtain ⟨⟨b, r⟩, hb, hp⟩ := Option.map_eq_some_iff.mp h
      obtain ⟨rfl, rfl⟩ := Prod.mk.inj hp
      simp [Piece.text, stringBody?_append hb, hc]
    split at h
    · obtain ⟨rfl, rfl⟩ := Prod.mk.inj (Option.some.inj h)
      simp [Piece.text]
    split at h
    · obtain ⟨rfl, rfl⟩ := Prod.mk.inj (Option.some.inj h)
      simp [Piece.text]
    · obtain ⟨k, _, hp⟩ := Option.map_eq_some_iff.mp h
      obtain ⟨rfl, rfl⟩ := Prod.mk.inj hp
      rfl

/-- A piece that is cut off is not empty. -/
theorem nextPiece?_text_ne_nil {cs rest : List Char} {piece : Piece}
    (h : nextPiece? cs = some (piece, rest)) : piece.text ≠ [] := by
  cases cs with
  | nil => simp [nextPiece?] at h
  | cons c cs =>
    rw [nextPiece?] at h
    split at h
    · obtain ⟨rfl, rfl⟩ := Prod.mk.inj (Option.some.inj h); simp [Piece.text]
    split at h
    · obtain ⟨rfl, rfl⟩ := Prod.mk.inj (Option.some.inj h); simp [Piece.text]
    split at h
    · obtain ⟨_, _, hp⟩ := Option.map_eq_some_iff.mp h
      obtain ⟨rfl, rfl⟩ := Prod.mk.inj hp
      simp [Piece.text]
    split at h
    · obtain ⟨rfl, rfl⟩ := Prod.mk.inj (Option.some.inj h); simp [Piece.text]
    split at h
    · obtain ⟨rfl, rfl⟩ := Prod.mk.inj (Option.some.inj h); simp [Piece.text]
    · obtain ⟨_, _, hp⟩ := Option.map_eq_some_iff.mp h
      obtain ⟨rfl, rfl⟩ := Prod.mk.inj hp
      simp [Piece.text]

/-- What is left after a piece is shorter. -/
theorem nextPiece?_length {cs rest : List Char} {piece : Piece}
    (h : nextPiece? cs = some (piece, rest)) : rest.length < cs.length := by
  have hlen := congrArg List.length (nextPiece?_append h)
  have hpos : 0 < piece.text.length := List.length_pos_iff.mpr (nextPiece?_text_ne_nil h)
  rw [List.length_append] at hlen
  omega

/-! ## Tokens -/

/-- The text that a string's body stands for, where the string begins at `pos`. -/
def unescape (body : List Char) (pos : Pos) : Except Failure String :=
  match Quoted.decode body with
  | .ok cs => .ok (String.ofList cs)
  | .error (.unknownEscape offset c) => .error (.fault (.unknownEscape c) (pos.right (1 + offset)))
  | .error .dangling => .error (.defect .danglingBackslash)

/-- The token that a piece at `pos` becomes, if it is not dropped. -/
def Piece.token? (piece : Piece) (pos : Pos) : Except Failure (Option Token) :=
  match piece with
  | .blank _ | .comment _ => .ok none
  | .string body => (unescape body pos).map (fun s => some ⟨.stringLiteral, s, pos⟩)
  | .number text => .ok (some ⟨.intLiteral, String.ofList text, pos⟩)
  | .name text => .ok (some ⟨.identifier, String.ofList text, pos⟩)
  | .symbol kind c => .ok (some ⟨kind, String.singleton c, pos⟩)

/-- The fault of a text at which no piece begins: a quote that is never closed, or a character that
begins nothing. -/
def noPieceFault (c : Char) : Fault :=
  if c = doubleQuote then .unterminatedString else .unexpectedCharacter c

/-- The position behind a piece that begins at `pos`.  Only what is dropped can go beyond a line, so
for a token its length is added to the column. -/
def Piece.after (piece : Piece) (pos : Pos) : Pos :=
  match piece with
  | .blank text | .comment text => pos.skip text
  | .string _ | .number _ | .name _ | .symbol _ _ => pos.right piece.text.length

/-- The tokens of the text `cs`, which begins at `pos`. -/
def scan (pos : Pos) (cs : List Char) : Except Failure (List Token) :=
  match cs with
  | [] => .ok [⟨.endOfText, "", pos⟩]
  | c :: tail =>
    match _h : nextPiece? (c :: tail) with
    | none => .error (.fault (noPieceFault c) pos)
    | some (piece, rest) => do
      let token? ← piece.token? pos
      let tokens ← scan (piece.after pos) rest
      return token?.toList ++ tokens
termination_by cs.length
decreasing_by exact nextPiece?_length _h

/-- The tokens of a source text. -/
def tokenize (source : String) : Except Failure (List Token) :=
  scan Pos.start source.toList

end Risclet
