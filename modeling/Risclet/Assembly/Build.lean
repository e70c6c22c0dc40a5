import Risclet.Assembly
import Risclet.Assembly.Data
import Risclet.Options

/-! # From register instructions to assembler text

Each bank of symbolic registers has its own range of machine registers: the parameters are the
first eight, which take the arguments of calls; the variables have six and the results three of
those that a callee need not save.  Every register instruction becomes one or two machine
instructions, and the whole is laid out as a text for the assembler: a heading, the data
section, and the text section, which begins at the entry label and ends by leaving the program.
-/
namespace Risclet
namespace Assembly

/-! ## Registers -/

/-- The first machine register of a bank. -/
def bankBase : Bank → Nat
  | .param => 0
  | .var => 9
  | .temp => 15

/-- The number of machine registers of a bank. -/
def bankSize : Bank → Nat
  | .param => 8
  | .var => 6
  | .temp => 3

/-- The machine register for a symbolic one. -/
def physical (r : Register) : Except Failure Nat :=
  if 0 ≤ r.index ∧ r.index < bankSize r.bank then .ok (bankBase r.bank + r.index.toNat)
  else .error (.defect (.registerOutsideBank r (bankSize r.bank)))

/-! ## Instructions -/

/-- The least integer that `mov` can load. -/
def immediateMin : Int := -65536

/-- The greatest integer that `mov` can load. -/
def immediateMax : Int := 65535

/-- Loads an integer into a machine register: at once if it fits, else from the pool of
constants. -/
def loadInteger (dest : Nat) (value : Int) : Instr :=
  if immediateMin ≤ value ∧ value ≤ immediateMax then .moveImmediate dest value
  else .loadConstant dest value

/-- The machine instructions of a register instruction. -/
def ofLower : Lower.Instr → Except Failure (List Instr)
  | .loadVar name dest => do
    let d ← physical dest
    return [.loadAddress d name, .loadWord d d]
  | .storeVar name address source => do
    let a ← physical address
    let s ← physical source
    return [.loadAddress a name, .storeWord s a]
  | .loadLit dest value => do
    let d ← physical dest
    return [loadInteger d value]
  | .copy dest source => do
    let d ← physical dest
    let s ← physical source
    return [.move d s]
  | .binary (.foreign text) _ _ _ => .error (.fault (.foreignOperation text) Pos.unknown)
  | .binary (.arith op) result left right => do
    let d ← physical result
    let l ← physical left
    let r ← physical right
    return [.arith op d l r]
  | .call symbol => .ok [.branchLink symbol]
  | .foreign _ => .error (.defect .foreignLower)

/-- The machine instructions of register instructions, in order. -/
def codeOf : List Lower.Instr → Except Failure (List Instr)
  | [] => .ok []
  | instr :: instrs => do
    let code ← ofLower instr
    let rest ← codeOf instrs
    return code ++ rest

/-! ## The listing -/

/-- The machine code of a program. -/
structure Program where
  data : List DataLine
  code : List Instr
deriving DecidableEq, Repr

/-- The machine code of a register program.  The data section is made first. -/
def Program.ofLower (p : Lower.Program) : Except Failure Program := do
  let data ← (dataSection p.slots).mapError Failure.rejected
  let code ← codeOf p.instrs
  return ⟨data, code⟩

/-- The machine code of a register program, where characters of its texts may stand for halves of
surrogate pairs. -/
def Program.ofLowerIn (h : Text.Halves) (p : Lower.Program) : Except TextFailure Program := do
  let data ← dataSectionIn h p.slots
  let code ← (codeOf p.instrs).mapError TextFailure.failure
  return ⟨data, code⟩

/-- What stands before every line of a section's content. -/
def indent : String := "    "

/-- The heading: the program's name between two rules. -/
def header (o : Options) : List String :=
  let rule := "// " ++ String.ofList (List.replicate 59 '─')
  [rule, "// " ++ o.programName ++ " (Main Program)", rule]

/-- Leaves the program with status zero. -/
def exitSequence : List String :=
  ["mov x0, #0", "mov x8, #93", "svc #0"]

/-- The lines of the assembler text. -/
def Program.lines (o : Options) (p : Program) : List String :=
  header o ++
  ["", ".section .data"] ++ p.data.map (fun line => indent ++ line.text) ++
  ["", ".section .text", ".global " ++ entryLabel, entryLabel ++ ":"] ++
  p.code.map (fun instr => indent ++ instr.text) ++
  [""] ++ exitSequence.map (indent ++ ·)

/-- The assembler text. -/
def Program.text (o : Options) (p : Program) : String :=
  Text.unlines (p.lines o)

/-- The assembler text of a register program. -/
def emit (o : Options) (p : Lower.Program) : Except Failure String :=
  (Program.ofLower p).map (Program.text o)

/-- The assembler text of a register program, where characters of its texts may stand for halves of
surrogate pairs. -/
def emitIn (h : Text.Halves) (o : Options) (p : Lower.Program) : Except TextFailure String :=
  (Program.ofLowerIn h p).map (Program.text o)

end Assembly
end Risclet
