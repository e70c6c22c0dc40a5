import Risclet.Operator

/-! # Machine instructions

The part of the AArch64 instruction set that compiled programs are made of.  A machine register is
given by its number; it is seen as the 64-bit `x` register or as its lower half, the 32-bit `w`
register.
-/
namespace Risclet
namespace Assembly

/-- A machine instruction. -/
inductive Instr where
  /-- Loads the address of a symbol: `ldr xD, =symbol`. -/
  | loadAddress (dest : Nat) (symbol : String)
  /-- Loads the 32-bit word at an address, with its sign: `ldrsw xD, [xB]`. -/
  | loadWord (dest base : Nat)
  /-- Stores a 32-bit word at an address: `str wS, [xB]`. -/
  | storeWord (source base : Nat)
  /-- Loads an integer that fits into the instruction: `mov wD, #value`. -/
  | moveImmediate (dest : Nat) (value : Int)
  /-- Loads an integer from the pool of constants: `ldr wD, =value`. -/
  | loadConstant (dest : Nat) (value : Int)
  /-- Copies a register: `mov xD, xS`. -/
  | move (dest source : Nat)
  /-- Operates on 32-bit words: `add wD, wL, wR` and its like. -/
  | arith (op : Arith) (dest left right : Nat)
  /-- Branches to a subroutine: `bl symbol`. -/
  | branchLink (symbol : String)
deriving DecidableEq, Repr

/-- The name of a register as 64 bits. -/
def xName (r : Nat) : String := "x" ++ toString r

/-- The name of a register as 32 bits. -/
def wName (r : Nat) : String := "w" ++ toString r

/-- The mnemonic of an operation; integers have a sign. -/
def mnemonic : Arith → String
  | .add => "add"
  | .subtract => "sub"
  | .multiply => "mul"
  | .divide => "sdiv"

/-- An instruction as a line for the assembler. -/
def Instr.text : Instr → String
  | loadAddress dest symbol => "ldr " ++ xName dest ++ ", =" ++ symbol
  | loadWord dest base => "ldrsw " ++ xName dest ++ ", [" ++ xName base ++ "]"
  | storeWord source base => "str " ++ wName source ++ ", [" ++ xName base ++ "]"
  | moveImmediate dest value => "mov " ++ wName dest ++ ", #" ++ toString value
  | loadConstant dest value => "ldr " ++ wName dest ++ ", =" ++ toString value
  | move dest source => "mov " ++ xName dest ++ ", " ++ xName source
  | arith op dest left right =>
    mnemonic op ++ " " ++ wName dest ++ ", " ++ wName left ++ ", " ++ wName right
  | branchLink symbol => "bl " ++ symbol

end Assembly
end Risclet
