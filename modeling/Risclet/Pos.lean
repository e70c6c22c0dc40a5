/-! # Positions in a source text

Lines and columns count from one, and columns count characters.  A tree that was not read from a
text has no positions; both numbers are then minus one.
-/
namespace Risclet

/-- A place in a source text. -/
structure Pos where
  line : Int
  column : Int
deriving DecidableEq, Repr, Inhabited

namespace Pos

/-- The position of what stands in no text. -/
def unknown : Pos := ⟨-1, -1⟩

/-- Where a text begins. -/
def start : Pos := ⟨1, 1⟩

/-- The position `n` columns further on the same line. -/
def right (p : Pos) (n : Nat) : Pos :=
  ⟨p.line, p.column + n⟩

/-- The offset of the last line feed of a text; minus one if it holds none. -/
def lastLineFeed (cs : List Char) : Int :=
  (cs.length : Int) - 1 - cs.reverse.idxOf '\n'

/-- The position behind a text that is passed over.  Without a line feed in it the column grows by
its length; otherwise the line grows by its line feeds, and the column counts from the last one. -/
def skip (p : Pos) (cs : List Char) : Pos :=
  let feeds := cs.count '\n'
  if feeds = 0 then p.right cs.length
  else ⟨p.line + feeds, 1 + cs.length - (lastLineFeed cs + 1)⟩

end Pos
end Risclet
