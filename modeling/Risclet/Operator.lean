import Risclet.Text.Uppercase

/-! # Operators

The language has four arithmetic operators.  A tree that was put together by hand may carry
something else in an operator's place; it is kept as it stands until a stage that needs to know
the operation rejects it.
-/
namespace Risclet

/-- The arithmetic operations on 32-bit integers. -/
inductive Arith where
  | add
  | subtract
  | multiply
  | divide
deriving DecidableEq, Repr

namespace Arith

/-- The operation's name in listings of instructions. -/
def name : Arith → String
  | add => "ADD"
  | subtract => "SUBTRACT"
  | multiply => "MULTIPLY"
  | divide => "DIVIDE"

/-- The sign that the operation has in source text. -/
def sign : Arith → String
  | add => "+"
  | subtract => "-"
  | multiply => "*"
  | divide => "/"

end Arith

/-- What stands in an operator's place. -/
inductive Operator where
  /-- One of the four operations. -/
  | arith (op : Arith)
  /-- Something that is no operation of the language. -/
  | foreign (text : String)
deriving DecidableEq, Repr

namespace Operator

/-- The operator in listings of instructions. -/
def name : Operator → String
  | arith op => op.name
  | foreign text => Text.upper text

end Operator
end Risclet
