/-! # Symbolic registers

Registers come in three banks: parameters of calls, values and addresses of variables, and
results of operations.  An index may be any integer here; the machine's registers for a bank are
few, and an index outside them is found out when code for the machine is made.
-/
namespace Risclet

/-- The use that a register is put to. -/
inductive Bank where
  | param
  | var
  | temp
deriving DecidableEq, Repr

/-- The letter of a bank in listings. -/
def Bank.letter : Bank → String
  | .param => "p"
  | .var => "v"
  | .temp => "t"

/-- A register: a place in a bank. -/
structure Register where
  bank : Bank
  index : Int
deriving DecidableEq, Repr

namespace Register

/-- The register in listings. -/
def text (r : Register) : String :=
  r.bank.letter ++ toString r.index

/-- The parameter register at an index. -/
def param (index : Int) : Register := ⟨.param, index⟩

/-- The variable register at an index. -/
def var (index : Int) : Register := ⟨.var, index⟩

/-- The result register at an index. -/
def temp (index : Int) : Register := ⟨.temp, index⟩

end Register
end Risclet
