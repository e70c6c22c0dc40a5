import Risclet.DataType
import Risclet.Operator
import Risclet.Register
import Risclet.Table
import Risclet.Text.Lines

/-! # Register instructions

The second form of a program loads and stores: variables live in memory, and instructions work
on symbolic registers.  With the instructions goes a table of slots, which gives every variable
its type and the text of its initial value in memory.
-/
namespace Risclet
namespace Lower

/-- A register instruction. -/
inductive Instr where
  /-- Branches to a subroutine. -/
  | call (symbol : String)
  /-- Operates on two registers. -/
  | binary (op : Operator) (result left right : Register)
  /-- Copies a register. -/
  | copy (dest source : Register)
  /-- Loads an integer. -/
  | loadLit (dest : Register) (value : Int)
  /-- Loads the value of a variable. -/
  | loadVar (name : String) (dest : Register)
  /-- Stores a register into a variable; `address` is used up for its address. -/
  | storeVar (name : String) (address source : Register)
  /-- Something that is no instruction. -/
  | foreign (text : String)
deriving DecidableEq, Repr

/-- An instruction in a listing. -/
def Instr.text : Instr → String
  | call symbol => "(CALL, " ++ symbol ++ ")"
  | binary op result left right =>
    "(" ++ op.name ++ ", " ++ result.text ++ ", " ++ left.text ++ ", " ++ right.text ++ ")"
  | copy dest source => "(COPY, " ++ dest.text ++ ", " ++ source.text ++ ")"
  | loadLit dest value => "(LOADLIT, " ++ dest.text ++ ", " ++ toString value ++ ")"
  | loadVar name dest => "(LOADVAR, " ++ name ++ ", " ++ dest.text ++ ")"
  | storeVar name address source =>
    "(STOREVAR, " ++ name ++ ", " ++ address.text ++ ", " ++ source.text ++ ")"
  | foreign text => text

/-- The place of a variable in memory. -/
structure Slot where
  type : DataType
  /-- The initial value, as it is written in the data section. -/
  initial : String
deriving DecidableEq, Repr

/-- A program as register instructions. -/
structure Program where
  instrs : List Instr
  /-- The slots of the variables, in the order of their declarations. -/
  slots : Table Slot
deriving DecidableEq, Repr

/-- The listing of a program. -/
def Program.listing (p : Program) : String :=
  Text.unlines (["Lower IR:"] ++ p.instrs.map Instr.text ++ ["", "Variables:"] ++
    p.slots.entries.map (fun e => e.1 ++ ": " ++ e.2.type.name ++ " = " ++ e.2.initial))

end Lower
end Risclet
