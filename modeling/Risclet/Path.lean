/-! # Paths

A path is a text whose parts are separated by slashes.  The last part is the file's name; its
extension is the last dot and what follows it, unless nothing but dots stands before.
-/
namespace Risclet
namespace Path

/-- A path split into all up to its last slash, and the name after it. -/
def split (cs : List Char) : List Char × List Char :=
  let nameReversed := cs.reverse.takeWhile (· != '/')
  let dirReversed := cs.reverse.dropWhile (· != '/')
  (dirReversed.reverse, nameReversed.reverse)

/-- A name without its extension. -/
def stem (name : List Char) : List Char :=
  match name.reverse.dropWhile (· != '.') with
  | [] => name
  | _ :: before => if before.all (· == '.') then name else before.reverse

/-- The last part of a path. -/
def baseName (path : String) : String :=
  String.ofList (split path.toList).2

/-- The path of the assembler text that belongs to a source file: the extension is replaced. -/
def defaultOutput (source : String) : String :=
  let (dir, name) := split source.toList
  String.ofList (dir ++ stem name) ++ ".s"

end Path
end Risclet
