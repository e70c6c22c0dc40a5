import Risclet.Lower.Build

/-! # Lowering step by step

The stage that makes register instructions can be kept in use: it is given single tuple
instructions one after the other, and remembers the slots and the names declared.  A request for
a whole program begins with the slots of that program and no name declared.
-/
namespace Risclet
namespace Lower

/-- What can be asked for. -/
inductive Request where
  /-- The register instructions of a tuple instruction. -/
  | instr (instr : Tuple.Instr)
  /-- The register program of a tuple program. -/
  | program (program : Tuple.Program)

/-- What is answered. -/
inductive Answer where
  | code (instrs : List Instr)
  | program (program : Program)

/-- Answers a request in a state, and gives the state after it. -/
def answer (o : Options) (st : State) : Request → State × Except Failure Answer
  | .instr instr =>
    let (st, result) := lowerInstr o st instr
    (st, result.map .code)
  | .program program =>
    let (st, result) := build o st program
    (st, result.map .program)

/-- The names declared, in order. -/
def State.declaredSorted (st : State) : List String :=
  st.declared.mergeSort (fun a b => decide (a ≤ b))

end Lower
end Risclet
