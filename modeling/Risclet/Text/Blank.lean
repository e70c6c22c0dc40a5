import Risclet.Text.Ranges

/-! # Blank characters

The characters that separate words and are otherwise ignored: tabs, line ends, the space and their
relatives in the other scripts, and the four information separators.
-/
namespace Risclet
namespace Text

/-- The code points of the blank characters. -/
def blankRanges : Ranges :=
  [
    (0x9, 0xD), (0x1C, 0x20), (0x85, 0x85), (0xA0, 0xA0), (0x1680, 0x1680), (0x2000, 0x200A),
    (0x2028, 0x2029), (0x202F, 0x202F), (0x205F, 0x205F), (0x3000, 0x3000)
  ]

/-- Whether `c` is blank. -/
def isBlank (c : Char) : Bool :=
  blankRanges.covers c.toNat

end Text
end Risclet
