import Risclet.Proofs.Assembly.Code
import Risclet.Proofs.Assembly.Layout

/-! # From machine code back to register instructions

No two symbolic registers have the same machine register, so a machine register tells which symbolic
one it stands for (`registerOf?`).  A register instruction becomes one machine instruction or two;
if two, the first one loads the address of a variable, and no other code begins so.  Hence machine
code falls into the codes of register instructions in one way only (`decode`).  The data section has
a line for every slot, apart from those for alignment (`DataLine.slot?`).

Main statement: `toLower?_ofLower`, a register program is found again from its machine code.
-/
namespace Risclet
namespace Assembly

/-! ## Registers -/

/-- The symbolic registers for which the machine has one. -/
def registers : List Register :=
  [Bank.param, Bank.var, Bank.temp].flatMap fun bank =>
    (List.range (bankSize bank)).map fun (index : Nat) => ⟨bank, index⟩

theorem mem_registers {r : Register} (h : InBank r) : r ∈ registers := by
  obtain ⟨bank, index⟩ := r
  obtain ⟨hlow, hhigh⟩ := h
  obtain ⟨n, rfl⟩ := Int.eq_ofNat_of_zero_le hlow
  have hbank : bank ∈ [Bank.param, Bank.var, Bank.temp] := by cases bank <;> decide
  have hindex : n ∈ List.range (bankSize bank) := List.mem_range.mpr (Int.ofNat_lt.mp hhigh)
  exact List.mem_flatMap.mpr ⟨bank, hbank, List.mem_map.mpr ⟨n, hindex, rfl⟩⟩

/-- The symbolic register that has a given machine register. -/
def registerOf? (n : Nat) : Option Register :=
  registers.find? fun r => (physical r).toOption == some n

theorem registerOf?_of_physical {r : Register} {n : Nat} (h : physical r = .ok n) :
    registerOf? n = some r := by
  cases hfound : registerOf? n with
  | none =>
    have hnone := List.find?_eq_none.mp hfound r (mem_registers (physical_eq_ok.mp h).1)
    simp [h, Except.toOption] at hnone
  | some other =>
    have hother := List.find?_some hfound
    cases hp : physical other with
    | error e => simp [hp, Except.toOption] at hother
    | ok m =>
      obtain rfl : m = n := by simpa [hp, Except.toOption] using hother
      rw [physical_injective hp h]

/-! ## Instructions -/

/-- The register instructions of machine code. -/
def decode : List Instr → Option (List Lower.Instr)
  | [] => some []
  | .loadAddress d name :: .loadWord _ _ :: rest => do
    return .loadVar name (← registerOf? d) :: (← decode rest)
  | .loadAddress a name :: .storeWord s _ :: rest => do
    return .storeVar name (← registerOf? a) (← registerOf? s) :: (← decode rest)
  | .moveImmediate d value :: rest => do
    return .loadLit (← registerOf? d) value :: (← decode rest)
  | .loadConstant d value :: rest => do
    return .loadLit (← registerOf? d) value :: (← decode rest)
  | .move d s :: rest => do
    return .copy (← registerOf? d) (← registerOf? s) :: (← decode rest)
  | .arith op d l r :: rest => do
    return .binary (.arith op) (← registerOf? d) (← registerOf? l) (← registerOf? r) ::
      (← decode rest)
  | .branchLink symbol :: rest => do
    return .call symbol :: (← decode rest)
  | _ => none

/-- The code of an instruction is told from what follows it. -/
theorem Encoded.decode_append {instr : Lower.Instr} {code rest : List Instr}
    {instrs : List Lower.Instr} (h : Encoded instr code) (hrest : decode rest = some instrs) :
    decode (code ++ rest) = some (instr :: instrs) := by
  cases h with
  | call symbol => simp [decode, hrest]
  | binary hd hl hr =>
    simp [decode, hrest, registerOf?_of_physical hd, registerOf?_of_physical hl,
      registerOf?_of_physical hr]
  | copy hd hs => simp [decode, hrest, registerOf?_of_physical hd, registerOf?_of_physical hs]
  | loadLit value hd =>
    unfold loadInteger
    split <;> simp [decode, hrest, registerOf?_of_physical hd]
  | loadVar name hd => simp [decode, hrest, registerOf?_of_physical hd]
  | storeVar name ha hs =>
    simp [decode, hrest, registerOf?_of_physical ha, registerOf?_of_physical hs]

/-- **Code is decoded to the instructions that it is the code of.** -/
theorem decode_codeOf {instrs : List Lower.Instr} {code : List Instr}
    (h : codeOf instrs = .ok code) : decode code = some instrs := by
  induction instrs generalizing code with
  | nil => cases h; rfl
  | cons instr instrs ih =>
    obtain ⟨first, hf, h⟩ := Outcome.bind_eq_ok.mp h
    obtain ⟨rest, hr, h⟩ := Outcome.bind_eq_ok.mp h
    cases h
    exact (ofLower_eq_ok.mp hf).decode_append (ih hr)

/-! ## Slots -/

/-- The slot that a line of the data section is for. -/
def DataLine.slot? : DataLine → Option (String × Lower.Slot)
  | align => none
  | word name value => some (name, ⟨.int32, value⟩)
  | ascii name literal => some (name, ⟨.string, literal⟩)

theorem Laid.slots_eq {offset : Nat} {entries : List (String × Lower.Slot)}
    {lines : List DataLine} (h : Laid offset entries lines) :
    lines.filterMap DataLine.slot? = entries := by
  induction h with
  | nil => rfl
  | word _ ih | padded _ _ ih | ascii _ ih => simp [List.filterMap_cons, DataLine.slot?, ih]

/-! ## Programs -/

/-- The register program that has a given machine code. -/
def Program.toLower? (p : Program) : Option Lower.Program :=
  (decode p.code).map fun instrs => ⟨instrs, ⟨p.data.filterMap DataLine.slot?⟩⟩

/-- **A register program is found again from its machine code.** -/
theorem toLower?_ofLower {p : Lower.Program} {program : Program}
    (h : Program.ofLower p = .ok program) : program.toLower? = some p := by
  obtain ⟨hdata, hcode⟩ := Program.ofLower_eq_ok.mp h
  rw [Program.toLower?, decode_codeOf hcode, (laid_of_dataSection hdata).slots_eq]
  rfl

end Assembly
end Risclet
