import Risclet.Text.Printable

/-! # Displayed text

A text is displayed between quotes, so that a message can show it whole: blanks at its ends can be
seen, and what cannot be printed is spelled out.  Single quotes are used, unless the text holds a
single quote and no double one.
-/
namespace Risclet
namespace Text

/-- The mark that opens and closes a displayed text by default. -/
def singleQuote : Char := '\x27'

/-- The mark that delimits string literals. -/
def doubleQuote : Char := '\x22'

/-- The digits of `n` in lower-case hexadecimal, with zeros in front up to `width` digits. -/
def hexadecimal (width n : Nat) : List Char :=
  let digits := Nat.toDigits 16 n
  List.replicate (width - digits.length) '0' ++ digits

/-- One character of a text that is displayed between `quote` marks. -/
def displayChar (quote c : Char) : List Char :=
  if c = quote ∨ c = '\\' then ['\\', c]
  else if c = '\n' then ['\\', 'n']
  else if c = '\r' then ['\\', 'r']
  else if c = '\t' then ['\\', 't']
  else if isPrintable c then [c]
  else if c.toNat < 0x100 then ['\\', 'x'] ++ hexadecimal 2 c.toNat
  else if c.toNat < 0x10000 then ['\\', 'u'] ++ hexadecimal 4 c.toNat
  else ['\\', 'U'] ++ hexadecimal 8 c.toNat

/-- The mark that a text is displayed between. -/
def displayQuote (cs : List Char) : Char :=
  if singleQuote ∈ cs ∧ doubleQuote ∉ cs then doubleQuote else singleQuote

/-- The displayed form of a text. -/
def display (s : String) : String :=
  let quote := displayQuote s.toList
  String.ofList (quote :: (s.toList.flatMap (displayChar quote) ++ [quote]))

end Text
end Risclet
