import Risclet.Node
import Risclet.Options

/-! # What a program does

The meaning of statements, without regard to how they are compiled.  Variables hold 32-bit words,
and what can be seen of a program from outside are its calls, each with the symbol that it branches
to and its argument.

* An operation is done on integers, and its result is brought back into 32 bits by dropping what
  does not fit; a quotient is rounded toward zero, and a quotient by zero is zero.
* A declaration with a value acts like an assignment in its place; one without a value does
  nothing, and neither does one with a string, since no word holds a string.
* All variables begin with zero.

A tree that is no statement has no meaning: `Node.exec` is then `none`.
-/
namespace Risclet

/-- The value of a variable or register. -/
abbrev Word := BitVec 32

/-- The values of all variables. -/
abbrev Memory := String → Word

/-- The memory with one variable changed. -/
def Memory.set (m : Memory) (name : String) (value : Word) : Memory :=
  fun key => if key = name then value else m key

@[simp] theorem Memory.set_self (m : Memory) (name : String) (value : Word) :
    m.set name value name = value := if_pos rfl

theorem Memory.set_other (m : Memory) {name key : String} (value : Word) (h : key ≠ name) :
    m.set name value key = m key := if_neg h

namespace Arith

/-- The operation on unbounded integers. -/
def onIntegers : Arith → Int → Int → Int
  | add, a, b => a + b
  | subtract, a, b => a - b
  | multiply, a, b => a * b
  | divide, a, b => a.tdiv b

/-- The operation on words. -/
def eval (op : Arith) (a b : Word) : Word :=
  BitVec.ofInt 32 (op.onIntegers a.toInt b.toInt)

example : eval .divide 7 0 = 0 ∧ eval .divide (-7) 2 = -3 ∧
    eval .divide (BitVec.intMin 32) (-1) = BitVec.intMin 32 := by decide

end Arith

/-- A call that can be seen from outside. -/
structure Event where
  symbol : String
  argument : Word
deriving DecidableEq, Repr

/-- The variables, and the calls made so far. -/
structure World where
  memory : Memory
  events : List Event

namespace World

/-- Where a program begins. -/
def start : World := ⟨fun _ => 0, []⟩

/-- Gives a variable a value. -/
def store (w : World) (name : String) (value : Word) : World :=
  { w with memory := w.memory.set name value }

/-- Makes a call. -/
def call (w : World) (symbol : String) (argument : Word) : World :=
  { w with events := w.events ++ [⟨symbol, argument⟩] }

end World

namespace Node

/-- The value of an expression. -/
def value? (m : Memory) : Node → Option Word
  | .int value _ => some (BitVec.ofInt 32 value)
  | .ident name _ => some (m name)
  | .binary (.arith op) left right _ => do
    let a ← left.value? m
    let b ← right.value? m
    return op.eval a b
  | _ => none

/-- What a statement does. -/
def exec (o : Options) (w : World) : Node → Option World
  | .decl _ _ .absent _ => some w
  | .decl _ _ (.str _ _) _ => some w
  | .decl name _ value _ | .assign name value _ => (value.value? w.memory).map (w.store name)
  | .call name [arg] _ => (arg.value? w.memory).map (w.call (o.resolve name))
  | _ => none

/-- What statements do, one after the other. -/
def run (o : Options) (w : World) (statements : List Node) : Option World :=
  statements.foldlM (exec o) w

end Node
end Risclet
