import Risclet.Item
import Risclet.Operator
import Risclet.Table
import Risclet.Text.Lines

/-! # Tuple instructions

The first form that a program is compiled to is a flat list of instructions on named variables,
with numbered results of operations in between, and a table of the variables with their types.
A statement such as `x: Int32 = y + 3;` becomes two of them:

    (ADD, y, 3, t0)
    (DECLARE, x, Int32, t0)
-/
namespace Risclet
namespace Tuple

/-- A tuple instruction. -/
inductive Instr where
  /-- Declares a variable and gives it a value, unless that is `absent`. -/
  | declare (name : String) (type : DataType) (value : Item)
  /-- Gives a variable a value. -/
  | assign (name : String) (value : Item)
  /-- Calls a subroutine. -/
  | call (name : String) (args : List Item)
  /-- Operates on two items; `temp` numbers the result. -/
  | binary (op : Operator) (left right : Item) (temp : Int)
  /-- Something that is no instruction. -/
  | foreign (text : String)
deriving DecidableEq, Repr

/-- An instruction in a listing. -/
def Instr.text : Instr → String
  | declare name type .absent => "(DECLARE, " ++ name ++ ", " ++ type.name ++ ")"
  | declare name type value =>
    "(DECLARE, " ++ name ++ ", " ++ type.name ++ ", " ++ value.text ++ ")"
  | assign name value => "(ASSIGN, " ++ name ++ ", " ++ value.text ++ ")"
  | call name args => "(CALL, " ++ name ++ ", " ++ ", ".intercalate (args.map Item.text) ++ ")"
  | binary op left right temp =>
    "(" ++ op.name ++ ", " ++ left.text ++ ", " ++ right.text ++ ", t" ++ toString temp ++ ")"
  | foreign text => text

/-- A program as tuple instructions. -/
structure Program where
  instrs : List Instr
  /-- The variables with their types, in the order of their declarations. -/
  vars : Table DataType
deriving DecidableEq, Repr

/-- The listing of a program. -/
def Program.listing (p : Program) : String :=
  Text.unlines (["Tuple IR:"] ++ p.instrs.map Instr.text ++ ["", "Variables:"] ++
    p.vars.entries.map (fun e => e.1 ++ ": " ++ e.2.name))

end Tuple
end Risclet
