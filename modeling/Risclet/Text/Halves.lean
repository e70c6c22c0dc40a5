import Risclet.Text.Blank
import Risclet.Text.Digit
import Risclet.Text.Quoted
import Risclet.Text.Word

/-! # Halves of surrogate pairs

The texts that are compiled are sequences of code points, and halves of surrogate pairs are among
those that may stand in them.  They are no characters, and cannot stand in a `String`.  A text with
halves is therefore given as a `String` in which other characters stand for them, together with the
table `Halves` that tells which character stands for which half.  Only characters that the text does
not use for themselves may stand for halves, and of them only those that the scanner takes for
nothing in particular, as it does a half: none that is blank, a digit, part of a name or printable,
and none of ASCII.

The stages treat such a character as they would treat the half.  The difference is made where a
text is encoded: a half has no bytes, and the first one is reported (`Halves.encode`).  This is done
to the literals of the data section, whose sizes are counted on their encodings
(`Halves.measure`), and to a text that is written to a file.
-/
namespace Risclet
namespace Text

/-- Whether a character has no meaning of its own to the scanner, and is not printed as it is. -/
def isInert (c : Char) : Bool :=
  decide (0x80 ≤ c.toNat) && !isBlank c && !isDigit c && !isWordChar c && !isPrintable c

/-- Which characters of a text stand for halves, and for which. -/
structure Halves where
  /-- The half, by its number, that a character stands for; `none` for one that stands for
  itself. -/
  half? : Char → Option Nat
  inert : ∀ c n, half? c = some n → isInert c = true
  isHalf : ∀ c n, half? c = some n → 0xD800 ≤ n ∧ n ≤ 0xDFFF

/-- What is reported of a text that cannot be encoded. -/
structure EncodeFault where
  /-- How many characters precede the first half. -/
  start : Nat
  /-- How many precede what follows it and the halves right behind it. -/
  stop : Nat
  /-- The first half. -/
  half : Nat
deriving DecidableEq, Repr

/-- The wording of the report: the half with its place, or the places of the first and the last of
several. -/
def EncodeFault.message (f : EncodeFault) : String :=
  let place :=
    if f.stop = f.start + 1 then
      "character '\\u" ++ String.ofList (hexadecimal 4 f.half) ++ "' in position " ++
        toString f.start
    else "characters in position " ++ toString f.start ++ "-" ++ toString (f.stop - 1)
  "'utf-8' codec can't encode " ++ place ++ ": surrogates not allowed"

namespace Halves

/-- No character stands for a half. -/
def none : Halves where
  half? _ := Option.none
  inert := by simp
  isHalf := by simp

variable (h : Halves)

/-- The first halves of some characters, where `offset` others precede them. -/
def faultFrom (offset : Nat) : List Char → Option EncodeFault
  | [] => Option.none
  | c :: rest =>
    match h.half? c with
    | Option.none => faultFrom (offset + 1) rest
    | some n => some ⟨offset, offset + 1 + (rest.takeWhile (fun d => (h.half? d).isSome)).length, n⟩

/-- The first halves of some characters. -/
def fault? (cs : List Char) : Option EncodeFault :=
  h.faultFrom 0 cs

/-- The bytes of characters. -/
def encode (cs : List Char) : Except EncodeFault (List UInt8) :=
  match h.fault? cs with
  | some f => .error f
  | Option.none => .ok (cs.flatMap String.utf8EncodeChar)

/-- The number of bytes that a literal assembles to, as it is counted: with a mark for each escape,
what stands between the quotes is encoded. -/
def measure (literal : String) : Except EncodeFault Nat :=
  (h.encode (Quoted.collapse (literal.toList.drop 1).dropLast)).map List.length

end Halves
end Text
end Risclet
