import Risclet.Tuple.Build

/-! # Flattening step by step

The stage that makes tuple instructions can be kept in use: it is given single statements and
operands one after the other, and remembers the variables that were declared.  A request for a
whole program begins with no variables.  What is rejected leaves the variables as they were,
except that a program that is rejected leaves those declared before its bad statement.
-/
namespace Risclet
namespace Tuple

/-- What can be asked for. -/
inductive Request where
  /-- The instructions of a statement. -/
  | statement (node : Node)
  /-- The program of some statements. -/
  | program (statements : List Node)
  /-- The item of a node that goes into a register. -/
  | operand (node : Node)
  /-- The item of a node. -/
  | item (node : Node)

/-- What is answered. -/
inductive Answer where
  | code (instrs : List Instr)
  | program (program : Program)
  | item (item : Item)

/-- Answers a request in the light of the variables declared so far, and gives those declared
after it. -/
def answer (o : Options) (vars : Table DataType) :
    Request → Table DataType × Except Error Answer
  | .statement node =>
    let (vars, result) := flatten o vars node
    (vars, result.map .code)
  | .program statements =>
    let (vars, result) := build o statements
    (vars, result.map .program)
  | .operand node => (vars, (toOperand o vars node).map .item)
  | .item node => (vars, (toItem o vars node).map .item)

end Tuple
end Risclet
