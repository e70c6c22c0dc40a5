import Risclet.DataType
import Risclet.Proofs.Assembly.Reader
import Risclet.Proofs.Meaning

/-! # What machine instructions do

The machine has 64-bit registers and a memory of bytes.  A write to the lower half of a register
clears the upper half; a word is loaded with its sign and lies in memory with its least byte first;
an operation works on lower halves.  An integer that does not fit into `mov`, or into a word of the
pool of constants, cannot be assembled, and then there is no next state.

What is around the program is an `Environment`, as for register instructions: the addresses of the
symbols, and what each call leaves in the registers.
-/
namespace Risclet
namespace Assembly

/-! ## Words in memory -/

/-- The contents of memory. -/
abbrev Bytes := BitVec 64 → BitVec 8

/-- The addresses of the bytes of a word. -/
def cell (a : BitVec 64) : List (BitVec 64) :=
  [a, a + 1#64, a + 2#64, a + 3#64]

/-- Two addresses whose words have no byte in common. -/
def Apart (a b : BitVec 64) : Prop :=
  ∀ key ∈ cell a, key ∉ cell b

namespace Bytes

/-- The word at an address. -/
def word (m : Bytes) (a : BitVec 64) : Word :=
  m (a + 3#64) ++ m (a + 2#64) ++ m (a + 1#64) ++ m a

/-- The memory with the word at an address changed. -/
def setWord (m : Bytes) (a : BitVec 64) (value : Word) : Bytes := fun key =>
  if key = a then value.extractLsb' 0 8
  else if key = a + 1#64 then value.extractLsb' 8 8
  else if key = a + 2#64 then value.extractLsb' 16 8
  else if key = a + 3#64 then value.extractLsb' 24 8
  else m key

/-- The word that was stored is loaded. -/
theorem word_setWord (m : Bytes) (a : BitVec 64) (value : Word) :
    (m.setWord a value).word a = value := by
  have hbytes : (m.setWord a value).word a = value.extractLsb' 24 8 ++ value.extractLsb' 16 8 ++
      value.extractLsb' 8 8 ++ value.extractLsb' 0 8 := by
    simp [word, setWord]
  rw [hbytes, BitVec.extractLsb'_append_extractLsb'_eq_extractLsb' (by rfl),
    BitVec.extractLsb'_append_extractLsb'_eq_extractLsb' (by rfl),
    BitVec.extractLsb'_append_extractLsb'_eq_extractLsb' (by rfl)]
  exact BitVec.extractLsb'_eq_self

/-- A word that has no byte in common with the one that was stored is not changed. -/
theorem word_setWord_other (m : Bytes) {a b : BitVec 64} (value : Word) (h : Apart b a) :
    (m.setWord a value).word b = m.word b := by
  have hkey : ∀ key ∈ cell b, m.setWord a value key = m key := by
    intro key hb
    have hout := h key hb
    simp only [cell, List.mem_cons, List.not_mem_nil, or_false, not_or] at hout
    simp [setWord, hout]
  simp only [cell, List.forall_mem_cons] at hkey
  simp [word, hkey]

end Bytes

/-! ## Operations -/

/-- The lower half of a register. -/
def low (x : BitVec 64) : Word :=
  x.setWidth 32

@[simp] theorem low_setWidth (v : Word) : low (v.setWidth 64) = v := by
  simp [low]

@[simp] theorem low_signExtend (v : Word) : low (v.signExtend 64) = v := by
  apply BitVec.eq_of_getLsbD_eq
  intro i hi
  have hlt : i < 64 := by omega
  simp [low, BitVec.getElem_signExtend, hi, hlt]

/-- An operation of the machine on words. -/
def operate : Arith → Word → Word → Word
  | .add, a, b => a + b
  | .subtract, a, b => a - b
  | .multiply, a, b => a * b
  | .divide, a, b => a.sdiv b

/-- The machine computes on words what the operations do on integers. -/
theorem operate_eq_eval (op : Arith) (a b : Word) : operate op a b = op.eval a b := by
  -- Both sides have the same integer value, reduced into the range of words.
  apply BitVec.eq_of_toInt_eq
  cases op with
  | add => simp [operate, Arith.eval, Arith.onIntegers, BitVec.toInt_add]
  | subtract => simp [operate, Arith.eval, Arith.onIntegers, BitVec.toInt_sub]
  | multiply => simp [operate, Arith.eval, Arith.onIntegers, BitVec.toInt_mul]
  | divide => simp [operate, Arith.eval, Arith.onIntegers, BitVec.toInt_sdiv]

/-! ## Instructions -/

/-- What a program finds around it. -/
structure Environment where
  /-- The address of a symbol. -/
  address : String → BitVec 64
  /-- The registers after the call with a given number. -/
  after : Nat → Nat → BitVec 64

/-- The registers, the memory, and the calls made so far. -/
structure Machine where
  regs : Nat → BitVec 64
  bytes : Bytes
  events : List Event

namespace Machine

/-- Changes a register. -/
def setX (u : Machine) (r : Nat) (value : BitVec 64) : Machine :=
  { u with regs := fun key => if key = r then value else u.regs key }

/-- Changes the lower half of a register and clears the upper half. -/
def setW (u : Machine) (r : Nat) (value : Word) : Machine :=
  u.setX r (value.setWidth 64)

@[simp] theorem setX_self (u : Machine) (r : Nat) (value : BitVec 64) :
    (u.setX r value).regs r = value := if_pos rfl

theorem setX_other (u : Machine) {r key : Nat} (value : BitVec 64) (h : key ≠ r) :
    (u.setX r value).regs key = u.regs key := if_neg h

@[simp] theorem setX_bytes (u : Machine) (r : Nat) (value : BitVec 64) :
    (u.setX r value).bytes = u.bytes := rfl

@[simp] theorem setX_setX (u : Machine) (r : Nat) (first second : BitVec 64) :
    (u.setX r first).setX r second = u.setX r second := by
  simp only [setX, Machine.mk.injEq, and_self, and_true]
  funext key
  split <;> rfl

/-- What an instruction does. -/
def step (env : Environment) (u : Machine) : Instr → Option Machine
  | .loadAddress dest symbol => some (u.setX dest (env.address symbol))
  | .loadWord dest base => some (u.setX dest ((u.bytes.word (u.regs base)).signExtend 64))
  | .storeWord source base =>
    some { u with bytes := u.bytes.setWord (u.regs base) (low (u.regs source)) }
  | .moveImmediate dest value =>
    -- Sixteen bits, or their complement.
    if -65536 ≤ value ∧ value < 65536 then some (u.setW dest (BitVec.ofInt 32 value)) else none
  | .loadConstant dest value =>
    if -2147483648 ≤ value ∧ value < 4294967296 then some (u.setW dest (BitVec.ofInt 32 value))
    else none
  | .move dest source => some (u.setX dest (u.regs source))
  | .arith op dest left right =>
    some (u.setW dest (operate op (low (u.regs left)) (low (u.regs right))))
  | .branchLink symbol =>
    some { u with
      regs := env.after u.events.length
      events := u.events ++ [⟨symbol, low (u.regs 0)⟩] }

/-- What instructions do, one after the other. -/
def run (env : Environment) (u : Machine) (code : List Instr) : Option Machine :=
  code.foldlM (step env) u

@[simp] theorem run_nil (env : Environment) (u : Machine) : u.run env [] = some u := rfl

@[simp] theorem run_cons (env : Environment) (u : Machine) (instr : Instr) (code : List Instr) :
    u.run env (instr :: code) = (u.step env instr).bind (·.run env code) := rfl

theorem run_append (env : Environment) (u : Machine) (code rest : List Instr) :
    u.run env (code ++ rest) = (u.run env code).bind (·.run env rest) :=
  List.foldlM_append

/-- What runs to its end runs to any point of it. -/
theorem exists_run_of_append {env : Environment} {u last : Machine} {code rest : List Instr}
    (h : u.run env (code ++ rest) = some last) : ∃ mid, u.run env code = some mid := by
  rw [run_append] at h
  obtain ⟨mid, hmid, -⟩ := Option.bind_eq_some_iff.mp h
  exact ⟨mid, hmid⟩

/-- What a line does. -/
def stepLine (env : Environment) (u : Machine) (line : String) : Option Machine :=
  (Instr.read line).bind (u.step env)

/-- What lines do, one after the other. -/
def runLines (env : Environment) (u : Machine) (lines : List String) : Option Machine :=
  lines.foldlM (stepLine env) u

/-- **The lines of instructions do what the instructions do.** -/
theorem runLines_text (env : Environment) (u : Machine) (code : List Instr) :
    u.runLines env (code.map Instr.text) = u.run env code := by
  have hstep : (fun (u : Machine) (i : Instr) => u.stepLine env i.text) = step env := by
    funext u i
    rw [stepLine, Instr.read_text]
    rfl
  rw [runLines, List.foldlM_map, hstep]
  rfl

end Machine
end Assembly
end Risclet
