import Risclet.Error
import Risclet.Lower
import Risclet.Text.Quoted

/-! # The data section

Every variable has a labelled line in the data section, in the order of the slots: an integer a
word of four bytes, a string the bytes of its literal.  Words lie at multiples of four bytes, so
after strings a line for alignment may stand before a word.  What is kept track of is the number
of bytes modulo four.
-/
namespace Risclet
namespace Assembly

/-- The size of a word, and the multiple at which it lies. -/
def wordSize : Nat := 4

/-- A line of the data section. -/
inductive DataLine where
  /-- Fills up to the next multiple of `wordSize`. -/
  | align
  /-- A variable that holds an integer. -/
  | word (name value : String)
  /-- A variable that holds a string, given as its literal. -/
  | ascii (name literal : String)
deriving DecidableEq, Repr

/-- A line of the data section as text. -/
def DataLine.text : DataLine → String
  | align => ".balign " ++ toString wordSize
  | word name value => name ++ ": .word " ++ value
  | ascii name literal => name ++ ": .ascii " ++ literal

/-! ## The lines of slots -/

section Lines
variable {ε : Type} (reject : Error → ε) (measure : String → Except ε Nat)

/-- The lines for slots, where `offset` is the number of bytes before them modulo `wordSize`.  The
size of a literal is what `measure` says, and a type without storage is rejected. -/
def dataFrom (offset : Nat) : List (String × Lower.Slot) → Except ε (List DataLine)
  | [] => .ok []
  | (name, slot) :: rest =>
    match slot.type with
    | .int32 =>
      let padding := if offset = 0 then [] else [.align]
      (dataFrom 0 rest).map (padding ++ .word name slot.initial :: ·)
    | .string => do
      let size ← measure slot.initial
      (dataFrom ((offset + size) % wordSize) rest).map (.ascii name slot.initial :: ·)
    | .foreign text => .error (reject ⟨.foreignTypeOf text name, Pos.unknown⟩)

end Lines

/-- The lines of the data section. -/
def dataSection (slots : Table Lower.Slot) : Except Error (List DataLine) :=
  dataFrom id (fun literal => .ok (Text.Quoted.byteCount literal)) 0 slots.entries

/-- The lines of the data section, where characters of the literals may stand for halves of
surrogate pairs. -/
def dataSectionIn (h : Text.Halves) (slots : Table Lower.Slot) :
    Except TextFailure (List DataLine) :=
  dataFrom (fun e => .failure (.rejected e))
    (fun literal => (h.measure literal).mapError .unencodable)
    0 slots.entries

end Assembly
end Risclet
