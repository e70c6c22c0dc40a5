import Risclet.Text.Blank
import Risclet.Text.Digit

/-! # Numerals

A numeral is a run of decimal digits of any script, in which single underscores may separate digits;
a sign may stand before it and blanks around it.  A run of more than `maxDigits` digits is refused
whatever follows it, so that reading takes bounded time.
-/
namespace Risclet
namespace Text
namespace Numeral

/-- The greatest number of digits that is read; leading zeros count. -/
def maxDigits : Nat := 4300

/-- Why a text is not read as a number. -/
inductive Fault where
  /-- The text is no numeral. -/
  | malformed
  /-- The numeral has this many digits, and that is more than `maxDigits`. -/
  | tooLong (digits : Nat)
deriving DecidableEq, Repr

/-- Whether `c` may stand before or after a numeral.  The information separators may not, although
they are blank. -/
def isPadding (c : Char) : Bool :=
  isBlank c && !(0x1C ≤ c.toNat && c.toNat ≤ 0x1F)

/-- Whether `c` may stand in a numeral after its sign. -/
def isNumeralChar (c : Char) : Bool :=
  isDigit c || c == '_'

/-- Whether a run of digits and underscores is not empty and has each underscore between digits. -/
def wellSeparated : List Char → Bool
  | [] => false
  | [c] => c != '_'
  | c :: d :: rest =>
    if c = '_' then false else if d = '_' then wellSeparated rest else wellSeparated (d :: rest)

/-- Reads a numeral whose sign has been read. -/
def readUnsigned (cs : List Char) : Except Fault Nat :=
  let body := cs.takeWhile isNumeralChar
  let digits := body.filter isDigit
  if wellSeparated body = false then .error .malformed
  else if maxDigits < digits.length then .error (.tooLong digits.length)
  else if ((cs.dropWhile isNumeralChar).dropWhile isPadding).isEmpty then .ok (decimalValue digits)
  else .error .malformed

/-- Reads a numeral. -/
def read (s : String) : Except Fault Int :=
  match s.toList.dropWhile isPadding with
  | '-' :: rest => (readUnsigned rest).map (fun n => -(n : Int))
  | '+' :: rest => (readUnsigned rest).map (fun n => (n : Int))
  | rest => (readUnsigned rest).map (fun n => (n : Int))

end Numeral
end Text
end Risclet
