import Risclet.FileTree
import Risclet.Text.Halves

/-! # Hosts

What a run of the compiler meets besides its arguments and the files, and has no say in.  A host may
refuse to print a text, to open a path or to store all bytes of a file, each for reasons of its own:
the output has no such character or is closed, a permission is missing, the disk is full.  The host
that refuses nothing is the one with the defaults.
-/
namespace Risclet

/-- A refusal by the system: its number and its words. -/
structure SystemFault where
  code : Nat
  words : String
deriving DecidableEq, Repr

/-- Why a host does not do what it is asked for. -/
inductive Refusal where
  | system (f : SystemFault)
  /-- A text has no encoding; `words` say why. -/
  | codec (words : String)
deriving DecidableEq, Repr

/-- What a file is opened for. -/
inductive Access where
  | reading
  | writing
deriving DecidableEq, Repr

/-- A host. -/
structure Host where
  /-- The characters that stand for halves of surrogate pairs in the arguments. -/
  halves : Text.Halves := .none
  /-- Why a text is not printed, behind what has been printed before. -/
  console : String → String → Option Refusal := fun _ _ => none
  /-- Why a path is not opened, whatever it leads to. -/
  denies : Access → String → Option Refusal := fun _ _ => none
  /-- Why bytes do not all get into the file at a place, and how many of them do. -/
  short : List String → ByteArray → Option (Nat × SystemFault) := fun _ _ => none
  /-- Whether two dashes that are attached to an option are its value; else they are none. -/
  keepsDashes : Bool := false

namespace Host

/-- Prints texts behind `out`, up to the first that is refused: all that is then printed, and why
that one is not. -/
def print (host : Host) (out : String) : List String → String × Option Refusal
  | [] => (out, none)
  | text :: more =>
    match host.console out text with
    | some r => (out, some r)
    | none => host.print (out ++ text) more

/-- Stores a text in the file at a place, which is empty, as far as it goes: the tree after it, and
why it does not hold the whole text.  A text without encoding is refused before anything is
stored. -/
def store (host : Host) (t : FileTree) (names : List String) (text : String) :
    FileTree × Option Refusal :=
  match host.halves.fault? text.toList with
  | some f => (t, some (.codec f.message))
  | none =>
    let bytes := text.toUTF8
    match host.short names bytes with
    | some (count, f) => (t.set names (bytes.extract 0 count), some (.system f))
    | none => (t.set names bytes, none)

end Host
end Risclet
