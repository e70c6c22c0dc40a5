import Risclet.Assembly
import Risclet.Proofs.Assembly.Layout
import Std.Data.String.ToInt

/-! # Reading assembler lines

What a line of machine code says, by the rules of the assembler and from the line alone: its
mnemonic stands before the first blank, and the operands follow with a comma and a blank between
them.  The `x` and `w` names of registers tell the forms of an instruction apart.  A symbol is
everything that is left of its line.  In the data section the label of a line stands before its
first colon.

Every instruction is read back from its own line (`Instr.read_text`), so a machine that runs on
lines does what the instructions say.  So is every line of the data section, unless there is a colon
in its label (`DataLine.read_text`).
-/
namespace Risclet
namespace Assembly

/-- Reads from the beginning of some characters and leaves the others. -/
abbrev Reader := StateT (List Char) Option

namespace Reader

/-! ## Parts of a line -/

/-- Passes over a fixed text. -/
def skip (text : String) : Reader Unit := fun cs =>
  if text.toList.isPrefixOf cs then some ((), cs.drop text.toList.length) else none

/-- Reads a decimal numeral. -/
def number : Reader Nat := fun cs =>
  (String.ofList (cs.takeWhile Char.isDigit)).toNat?.map (·, cs.dropWhile Char.isDigit)

/-- Reads the name of a register with a given letter. -/
def register (letter : String) : Reader Nat := do
  skip letter
  number

/-- Reads everything that is left. -/
def remainder : Reader String := fun cs => some (String.ofList cs, [])

/-- Reads everything that is left as a decimal numeral, with its sign. -/
def integer : Reader Int := do
  let text ← remainder
  (text.toInt? : Option Int)

/-- Checks that nothing is left. -/
def finish : Reader Unit := fun cs =>
  if cs = [] then some ((), []) else none

/-! ## Forms of instructions -/

/-- The operand of a load or store that holds an address. -/
def base : Reader Nat := do
  skip ", ["
  let b ← register "x"
  skip "]"
  finish
  return b

/-- `ldr xD, =symbol` or `ldr wD, =value`. -/
def load : Reader Instr :=
  (do let d ← register "x"
      skip ", ="
      return .loadAddress d (← remainder)) <|>
  (do let d ← register "w"
      skip ", ="
      return .loadConstant d (← integer))

/-- `mov xD, xS` or `mov wD, #value`. -/
def move : Reader Instr :=
  (do let d ← register "x"
      skip ", "
      let s ← register "x"
      finish
      return .move d s) <|>
  (do let d ← register "w"
      skip ", #"
      return .moveImmediate d (← integer))

/-- An operation on three registers. -/
def operation (op : Arith) : Reader Instr := do
  let d ← register "w"
  skip ", "
  let l ← register "w"
  skip ", "
  let r ← register "w"
  finish
  return .arith op d l r

/-- What follows a mnemonic. -/
def operands (word : String) : Reader Instr :=
  match word with
  | "ldr" => load
  | "ldrsw" => do return .loadWord (← register "x") (← base)
  | "str" => do return .storeWord (← register "w") (← base)
  | "mov" => move
  | "add" => operation .add
  | "sub" => operation .subtract
  | "mul" => operation .multiply
  | "sdiv" => operation .divide
  | "bl" => do return .branchLink (← remainder)
  | _ => failure

/-! ## Forms of data -/

/-- Reads what stands before a colon. -/
def label : Reader String := fun cs =>
  some (String.ofList (cs.takeWhile (· ≠ ':')), cs.dropWhile (· ≠ ':'))

/-- What follows the label of a variable: `: .word value` or `: .ascii literal`. -/
def directive (name : String) : Reader DataLine :=
  (do skip ": .word "
      return .word name (← remainder)) <|>
  (do skip ": .ascii "
      return .ascii name (← remainder))

/-- A variable. -/
def datum : Reader DataLine := do
  directive (← label)

/-- `.balign n`, where `n` is the size of a word. -/
def alignment : Reader DataLine := do
  skip ".balign "
  let multiple ← number
  finish
  if multiple = wordSize then return .align else failure

end Reader

/-- The instruction that a line stands for. -/
def Instr.read (line : String) : Option Instr :=
  let word := line.toList.takeWhile (· ≠ ' ')
  (Reader.operands (String.ofList word)).run' (line.toList.drop (word.length + 1))

/-- The line of the data section that a text stands for.  A line with a label is a variable. -/
def DataLine.read (line : String) : Option DataLine :=
  (Reader.datum <|> Reader.alignment).run' line.toList

/-! ## Reading back -/

namespace Reader
variable {cs : List Char}

@[simp] theorem run_orElse {α : Type} (first second : Reader α) :
    (first <|> second).run cs = (first.run cs <|> second.run cs) := rfl

@[simp] theorem run_skip (text : String) :
    (skip text).run cs =
      if text.toList.isPrefixOf cs then some ((), cs.drop text.toList.length) else none := rfl

@[simp] theorem run_remainder : remainder.run cs = some (String.ofList cs, []) := rfl

theorem run_label {name : String} (h : ':' ∉ name.toList) (rest : List Char) :
    label.run (name.toList ++ ':' :: rest) = some (name, ':' :: rest) := by
  have hname : ∀ c ∈ name.toList, decide (c ≠ ':') = true := by
    intro c hc
    exact decide_eq_true (fun he => h (he ▸ hc))
  rw [StateT.run, label, List.takeWhile_append_of_pos hname, List.dropWhile_append_of_pos hname]
  simp

@[simp] theorem run_directive_word (name value : String) :
    (directive name).run (':' :: ' ' :: '.' :: 'w' :: 'o' :: 'r' :: 'd' :: ' ' :: value.toList) =
      some (.word name value, []) := by
  simp [directive]

@[simp] theorem run_directive_ascii (name literal : String) :
    (directive name).run
      (':' :: ' ' :: '.' :: 'a' :: 's' :: 'c' :: 'i' :: 'i' :: ' ' :: literal.toList) =
      some (.ascii name literal, []) := by
  simp [directive]

/-- Without a colon there is no variable. -/
theorem run_datum_eq_none (h : ':' ∉ cs) : datum.run cs = none := by
  have hall : ∀ c ∈ cs, decide (c ≠ ':') = true :=
    fun c hc => decide_eq_true (fun he => h (he ▸ hc))
  have hlabel : label.run cs = some (String.ofList cs, []) := by
    rw [StateT.run, label, ← List.append_nil cs, List.takeWhile_append_of_pos hall,
      List.dropWhile_append_of_pos hall]
    simp
  rw [datum, StateT.run_bind, hlabel]
  rfl

@[simp] theorem run_finish : finish.run [] = some ((), []) := rfl

/-- A numeral is read up to the first character that is no digit. -/
theorem run_number (n : Nat) (h : ∀ c ∈ cs.head?, c.isDigit = false) :
    number.run (Nat.toDigits 10 n ++ cs) = some (n, cs) := by
  have hdigit : ∀ c ∈ Nat.toDigits 10 n, c.isDigit = true :=
    fun c hc => Nat.isDigit_of_mem_toDigits (by decide) (by decide) hc
  have hrest : cs.takeWhile Char.isDigit = [] ∧ cs.dropWhile Char.isDigit = cs := by
    cases cs with
    | nil => exact ⟨rfl, rfl⟩
    | cons c cs => simp [h c rfl]
  have hread : (String.ofList (Nat.toDigits 10 n)).toNat? = some n := by
    rw [← Nat.toList_repr, String.ofList_toList, Nat.toNat?_repr]
  rw [StateT.run, number, List.takeWhile_append_of_pos hdigit,
    List.dropWhile_append_of_pos hdigit, hrest.1, hrest.2, List.append_nil, hread]
  rfl

@[simp] theorem run_number_cons (n : Nat) {c : Char} (h : c.isDigit = false) :
    number.run (Nat.toDigits 10 n ++ c :: cs) = some (n, c :: cs) :=
  run_number n (by simpa using h)

@[simp] theorem run_number_nil (n : Nat) :
    number.run (Nat.toDigits 10 n) = some (n, []) := by
  have h := run_number n (show ∀ c ∈ ([] : List Char).head?, c.isDigit = false by simp)
  rwa [List.append_nil] at h

@[simp] theorem run_alignment :
    alignment.run ('.' :: 'b' :: 'a' :: 'l' :: 'i' :: 'g' :: 'n' :: ' ' ::
      Nat.toDigits 10 wordSize) = some (.align, []) := by
  simp [alignment]

@[simp] theorem run_integer (value : Int) :
    integer.run value.repr.toList = some (value, []) := by
  simp [integer, Int.toInt?_repr]

@[simp] theorem run_base (b : Nat) :
    base.run (',' :: ' ' :: '[' :: 'x' :: (Nat.toDigits 10 b ++ [']'])) = some (b, []) := by
  simp [base, register]

@[simp] theorem run_operation (op : Arith) (d l r : Nat) :
    (operation op).run ('w' :: (Nat.toDigits 10 d ++ ',' :: ' ' :: 'w' :: (Nat.toDigits 10 l ++
      ',' :: ' ' :: 'w' :: Nat.toDigits 10 r))) = some (.arith op d l r, []) := by
  simp [operation, register]

end Reader

/-- **Every instruction is read back from its line.** -/
theorem Instr.read_text (instr : Instr) : read instr.text = some instr := by
  cases instr with
  | loadAddress dest symbol =>
    simp [read, text, xName, Reader.operands, Reader.load, Reader.register]
  | loadWord dest base => simp [read, text, xName, Reader.operands, Reader.register]
  | storeWord source base => simp [read, text, xName, wName, Reader.operands, Reader.register]
  | moveImmediate dest value =>
    simp [read, text, wName, Reader.operands, Reader.move, Reader.register]
  | loadConstant dest value =>
    simp [read, text, wName, Reader.operands, Reader.load, Reader.register]
  | move dest source => simp [read, text, xName, Reader.operands, Reader.move, Reader.register]
  | arith op dest left right =>
    cases op <;> simp [read, text, wName, mnemonic, Reader.operands]
  | branchLink symbol => simp [read, text, Reader.operands]

/-- **Every line of the data section is read back**, if there is no colon in its label. -/
theorem DataLine.read_text {line : DataLine} (h : ∀ name ∈ line.label?, ':' ∉ name.toList) :
    read line.text = some line := by
  cases line with
  | align =>
    have hdatum : Reader.datum.run align.text.toList = none := Reader.run_datum_eq_none (by decide)
    show Prod.fst <$> (Reader.datum <|> Reader.alignment).run align.text.toList = _
    rw [Reader.run_orElse, hdatum]
    simp [text]
  | word name value =>
    have hlabel := Reader.run_label (h name rfl)
    simp [read, text, Reader.datum, hlabel]
  | ascii name literal =>
    have hlabel := Reader.run_label (h name rfl)
    simp [read, text, Reader.datum, hlabel]

theorem DataLine.forall_read_text {lines : List DataLine}
    (h : ∀ name ∈ lines.filterMap label?, ':' ∉ name.toList) :
    ∀ line ∈ lines, read line.text = some line :=
  fun line hline => read_text fun name hname =>
    h name (List.mem_filterMap.mpr ⟨line, hline, hname⟩)

end Assembly
end Risclet
