import Risclet.Proofs.Meaning
import Risclet.Tuple

/-! # What tuple instructions do

Tuple instructions work on variables and on numbered results of operations.  A call forgets all
results, so that nothing may be taken from a result after it.  As for statements, a declaration
with a value acts like an assignment, and with a string or without a value it does nothing; without
a value an assignment does nothing either.  The machine has words only; the strings of variables
are what the declarations say (`finalString`).
-/
namespace Risclet
namespace Tuple

/-- The variables, the calls made so far, and the results that are known. -/
structure Machine extends World where
  temps : Int → Option Word

namespace Machine

/-- The value of an item. -/
def value? (s : Machine) : Item → Option Word
  | .int value => some (BitVec.ofInt 32 value)
  | .ident name => some (s.memory name)
  | .temp id => s.temps id
  | _ => none

/-- Gives a variable the value of an item. -/
def store? (s : Machine) (name : String) (item : Item) : Option Machine :=
  (s.value? item).map (fun v => { s with toWorld := s.toWorld.store name v })

/-- Records the result of the operation with a given number. -/
def setTemp (s : Machine) (temp : Int) (value : Word) : Machine :=
  { s with temps := fun id => if id = temp then some value else s.temps id }

/-- What an instruction does. -/
def step (o : Options) (s : Machine) : Instr → Option Machine
  | .declare _ _ .absent | .assign _ .absent => some s
  | .declare _ _ (.str _) => some s
  | .declare name _ item | .assign name item => s.store? name item
  | .call name [arg] =>
    (s.value? arg).map (fun v => ⟨s.toWorld.call (o.resolve name) v, fun _ => none⟩)
  | .binary (.arith op) left right temp => do
    let a ← s.value? left
    let b ← s.value? right
    return s.setTemp temp (op.eval a b)
  | _ => none

/-- A declaration with a value is a store, unless the value is a string. -/
theorem step_declare {item : Item} (habsent : item ≠ .absent)
    (hstr : item.literalType? ≠ some .string) (o : Options) (s : Machine) (name : String)
    (type : DataType) : s.step o (.declare name type item) = s.store? name item := by
  cases item with
  | absent => exact absurd rfl habsent
  | str text => exact absurd rfl hstr
  | _ => rfl

/-- An assignment of a value is a store. -/
theorem step_assign {item : Item} (habsent : item ≠ .absent) (o : Options) (s : Machine)
    (name : String) : s.step o (.assign name item) = s.store? name item := by
  cases item with
  | absent => exact absurd rfl habsent
  | _ => rfl

/-- What instructions do, one after the other. -/
def run (o : Options) (s : Machine) (instrs : List Instr) : Option Machine :=
  instrs.foldlM (step o) s

@[simp] theorem run_nil (o : Options) (s : Machine) : s.run o [] = some s := rfl

@[simp] theorem run_cons (o : Options) (s : Machine) (instr : Instr) (instrs : List Instr) :
    s.run o (instr :: instrs) = (s.step o instr).bind (·.run o instrs) := rfl

theorem run_append (o : Options) (s : Machine) (instrs rest : List Instr) :
    s.run o (instrs ++ rest) = (s.run o instrs).bind (·.run o rest) :=
  List.foldlM_append

end Machine

/-! ## Strings -/

/-- The string that an instruction gives a variable. -/
def Instr.string? (name : String) : Instr → Option String
  | declare key _ (.str text) => if key = name then some text else none
  | _ => none

/-- The string that a variable has after some instructions: the last that they give it. -/
def finalString (name : String) (instrs : List Instr) : String :=
  (instrs.filterMap (Instr.string? name)).getLast?.getD ""

end Tuple
end Risclet
