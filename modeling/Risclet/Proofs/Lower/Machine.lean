import Risclet.Lower
import Risclet.Proofs.Meaning
import Std.Data.String.ToInt

/-! # What register instructions do

Register instructions work on variables and on symbolic registers of 32 bits.  Two things are not
up to the program, and an `Environment` gives them: the address of each symbol, whose lower half a
store leaves in its address register; and the registers as each call leaves them, which can be
anything.  The calls are numbered, so that no two of them need leave the same.

Memory begins with the words that the slots give as texts (`Initialises`).
-/
namespace Risclet
namespace Lower

/-- The variables that an instruction loads or stores. -/
def Instr.variables : Instr → List String
  | loadVar name _ => [name]
  | storeVar name _ _ => [name]
  | _ => []

/-- The contents of the registers. -/
abbrev Registers := Register → Word

/-- The registers with one changed. -/
def Registers.set (regs : Registers) (r : Register) (value : Word) : Registers :=
  fun key => if key = r then value else regs key

@[simp] theorem Registers.set_self (regs : Registers) (r : Register) (value : Word) :
    regs.set r value r = value := if_pos rfl

theorem Registers.set_other (regs : Registers) {r key : Register} (value : Word) (h : key ≠ r) :
    regs.set r value key = regs key := if_neg h

/-- What a program finds around it. -/
structure Environment where
  /-- The address of a symbol. -/
  address : String → BitVec 64
  /-- The registers after the call with a given number. -/
  after : Nat → Registers

/-- The variables, the calls made so far, and the registers. -/
structure Machine extends World where
  regs : Registers

namespace Machine

/-- Changes a register. -/
def setReg (t : Machine) (r : Register) (value : Word) : Machine :=
  { t with regs := t.regs.set r value }

/-- What an instruction does. -/
def step (env : Environment) (t : Machine) : Instr → Option Machine
  | .call symbol =>
    some ⟨t.toWorld.call symbol (t.regs (.param 0)), env.after t.events.length⟩
  | .binary (.arith op) result left right =>
    some (t.setReg result (op.eval (t.regs left) (t.regs right)))
  | .copy dest source => some (t.setReg dest (t.regs source))
  | .loadLit dest value => some (t.setReg dest (BitVec.ofInt 32 value))
  | .loadVar name dest => some (t.setReg dest (t.memory name))
  | .storeVar name address source =>
    some ⟨t.toWorld.store name (t.regs source),
      t.regs.set address ((env.address name).setWidth 32)⟩
  | _ => none

/-- What instructions do, one after the other. -/
def run (env : Environment) (t : Machine) (instrs : List Instr) : Option Machine :=
  instrs.foldlM (step env) t

@[simp] theorem run_nil (env : Environment) (t : Machine) : t.run env [] = some t := rfl

@[simp] theorem run_cons (env : Environment) (t : Machine) (instr : Instr) (instrs : List Instr) :
    t.run env (instr :: instrs) = (t.step env instr).bind (·.run env instrs) := rfl

theorem run_append (env : Environment) (t : Machine) (instrs rest : List Instr) :
    t.run env (instrs ++ rest) = (t.run env instrs).bind (·.run env rest) :=
  List.foldlM_append

end Machine

/-! ## The first contents of memory -/

/-- The word that a text in the data section stands for. -/
def word? (text : String) : Option Word :=
  text.toInt?.map (BitVec.ofInt 32)

@[simp] theorem word?_toString (value : Int) :
    word? (toString value) = some (BitVec.ofInt 32 value) := by
  rw [word?, show toString value = value.repr from rfl, Int.toInt?_repr]
  rfl

/-- The initial value of integer variables that have none of their own. -/
theorem word?_zero : word? "0" = some 0 :=
  word?_toString 0

/-- Memory holds the initial values of the integer variables. -/
def Initialises (slots : Table Slot) (m : Memory) : Prop :=
  ∀ name text, slots.get? name = some ⟨.int32, text⟩ → word? text = some (m name)

/-- The integer slots have the texts of integers. -/
def Numeric (slots : Table Slot) : Prop :=
  ∀ name text, slots.get? name = some ⟨.int32, text⟩ → ∃ value : Int, text = toString value

/-- Memory can begin as numeric slots say. -/
theorem Numeric.exists_initialises {slots : Table Slot} (h : Numeric slots) :
    ∃ m, Initialises slots m := by
  refine ⟨fun name => ((slots.get? name).bind (fun slot => word? slot.initial)).getD 0, ?_⟩
  intro name text hslot
  obtain ⟨value, rfl⟩ := h name text hslot
  simp only [hslot, word?_toString, Option.bind_some, Option.getD_some]

end Lower
end Risclet
