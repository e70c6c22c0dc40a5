import Risclet.Assembly.Build
import Risclet.Proofs.Outcome

/-! # When register instructions have machine code

A symbolic register has a machine register exactly if its index lies inside its bank, and the
banks take up disjoint ranges, so different symbolic registers have different machine registers
(`physical_injective`).  What an instruction becomes is given by `Encoded`, and it becomes something
if its registers lie inside their banks and its operator is one of the four (`Encodable`).
-/
namespace Risclet
namespace Lower

/-- The registers that an instruction names. -/
def Instr.registers : Instr → List Register
  | call _ => []
  | binary _ result left right => [result, left, right]
  | copy dest source => [dest, source]
  | loadLit dest _ => [dest]
  | loadVar _ dest => [dest]
  | storeVar _ address source => [address, source]
  | foreign _ => []

/-- The integers that an instruction loads. -/
def Instr.literals : Instr → List Int
  | loadLit _ value => [value]
  | _ => []

/-- An instruction of the machine: no foreign one, and with no foreign operator. -/
def Instr.Known : Instr → Prop
  | binary (.foreign _) _ _ _ => False
  | foreign _ => False
  | _ => True

instance : DecidablePred Instr.Known
  | .binary (.foreign _) _ _ _ => .isFalse id
  | .foreign _ => .isFalse id
  | .binary (.arith _) _ _ _ => .isTrue trivial
  | .call _ | .copy _ _ | .loadLit _ _ | .loadVar _ _ | .storeVar _ _ _ => .isTrue trivial

end Lower

namespace Assembly

/-! ## Registers -/

/-- A register for which the machine has one. -/
def InBank (r : Register) : Prop :=
  0 ≤ r.index ∧ r.index < bankSize r.bank

instance (r : Register) : Decidable (InBank r) :=
  inferInstanceAs (Decidable (_ ∧ _))

theorem physical_eq_ok {r : Register} {n : Nat} :
    physical r = .ok n ↔ InBank r ∧ n = bankBase r.bank + r.index.toNat := by
  unfold physical InBank
  split
  · next h => simp [h, eq_comm]
  · next h => simp [h]

theorem InBank.physical {r : Register} (h : InBank r) :
    physical r = .ok (bankBase r.bank + r.index.toNat) :=
  physical_eq_ok.mpr ⟨h, rfl⟩

/-- **Banks do not overlap.**  Different registers have different machine registers. -/
theorem physical_injective {r s : Register} {n : Nat} (hr : physical r = .ok n)
    (hs : physical s = .ok n) : r = s := by
  obtain ⟨⟨hr0, hr1⟩, rfl⟩ := physical_eq_ok.mp hr
  obtain ⟨⟨hs0, hs1⟩, hn⟩ := physical_eq_ok.mp hs
  obtain ⟨rb, ri⟩ := r
  obtain ⟨sb, si⟩ := s
  cases rb <;> cases sb <;> simp only [bankBase, bankSize] at hr0 hr1 hs0 hs1 hn <;>
    first
      | (obtain rfl : ri = si := by omega
         rfl)
      | omega

/-! ## Instructions -/

/-- The machine code of an instruction. -/
inductive Encoded : Lower.Instr → List Instr → Prop where
  | call (symbol : String) : Encoded (.call symbol) [.branchLink symbol]
  | binary {op : Arith} {result left right : Register} {d l r : Nat} :
    physical result = .ok d → physical left = .ok l → physical right = .ok r →
    Encoded (.binary (.arith op) result left right) [.arith op d l r]
  | copy {dest source : Register} {d s : Nat} : physical dest = .ok d → physical source = .ok s →
    Encoded (.copy dest source) [.move d s]
  | loadLit {dest : Register} {d : Nat} (value : Int) : physical dest = .ok d →
    Encoded (.loadLit dest value) [loadInteger d value]
  | loadVar {dest : Register} {d : Nat} (name : String) : physical dest = .ok d →
    Encoded (.loadVar name dest) [.loadAddress d name, .loadWord d d]
  | storeVar {address source : Register} {a s : Nat} (name : String) :
    physical address = .ok a → physical source = .ok s →
    Encoded (.storeVar name address source) [.loadAddress a name, .storeWord s a]

theorem ofLower_eq_ok {instr : Lower.Instr} {code : List Instr} :
    ofLower instr = .ok code ↔ Encoded instr code := by
  constructor
  · intro h
    cases instr with
    | call symbol => cases h; exact .call symbol
    | foreign text => cases h
    | binary op result left right =>
      cases op with
      | foreign text => cases h
      | arith op =>
        obtain ⟨d, hd, h⟩ := Outcome.bind_eq_ok.mp h
        obtain ⟨l, hl, h⟩ := Outcome.bind_eq_ok.mp h
        obtain ⟨r, hr, h⟩ := Outcome.bind_eq_ok.mp h
        cases h
        exact .binary hd hl hr
    | copy dest source =>
      obtain ⟨d, hd, h⟩ := Outcome.bind_eq_ok.mp h
      obtain ⟨s, hs, h⟩ := Outcome.bind_eq_ok.mp h
      cases h
      exact .copy hd hs
    | loadLit dest value =>
      obtain ⟨d, hd, h⟩ := Outcome.bind_eq_ok.mp h
      cases h
      exact .loadLit value hd
    | loadVar name dest =>
      obtain ⟨d, hd, h⟩ := Outcome.bind_eq_ok.mp h
      cases h
      exact .loadVar name hd
    | storeVar name address source =>
      obtain ⟨a, ha, h⟩ := Outcome.bind_eq_ok.mp h
      obtain ⟨s, hs, h⟩ := Outcome.bind_eq_ok.mp h
      cases h
      exact .storeVar name ha hs
  · intro h
    cases h <;> simp [ofLower, *]

/-- An instruction that has machine code. -/
structure Encodable (instr : Lower.Instr) : Prop where
  known : instr.Known
  inBank : ∀ r ∈ instr.registers, InBank r

theorem Encodable.encoded {instr : Lower.Instr} (h : Encodable instr) :
    ∃ code, Encoded instr code := by
  have hr : ∀ r ∈ instr.registers, ∃ n, physical r = .ok n :=
    fun r hr => ⟨_, (h.inBank r hr).physical⟩
  have hk := h.known
  cases instr with
  | call symbol => exact ⟨_, .call symbol⟩
  | foreign text => exact hk.elim
  | binary op result left right =>
    cases op with
    | foreign text => exact hk.elim
    | arith op =>
      obtain ⟨d, hd⟩ := hr result (by simp [Lower.Instr.registers])
      obtain ⟨l, hl⟩ := hr left (by simp [Lower.Instr.registers])
      obtain ⟨r, hr⟩ := hr right (by simp [Lower.Instr.registers])
      exact ⟨_, .binary hd hl hr⟩
  | copy dest source =>
    obtain ⟨d, hd⟩ := hr dest (by simp [Lower.Instr.registers])
    obtain ⟨s, hs⟩ := hr source (by simp [Lower.Instr.registers])
    exact ⟨_, .copy hd hs⟩
  | loadLit dest value =>
    obtain ⟨d, hd⟩ := hr dest (by simp [Lower.Instr.registers])
    exact ⟨_, .loadLit value hd⟩
  | loadVar name dest =>
    obtain ⟨d, hd⟩ := hr dest (by simp [Lower.Instr.registers])
    exact ⟨_, .loadVar name hd⟩
  | storeVar name address source =>
    obtain ⟨a, ha⟩ := hr address (by simp [Lower.Instr.registers])
    obtain ⟨s, hs⟩ := hr source (by simp [Lower.Instr.registers])
    exact ⟨_, .storeVar name ha hs⟩

theorem codeOf_append {instrs rest : List Lower.Instr} {code more : List Instr}
    (h : codeOf instrs = .ok code) (hr : codeOf rest = .ok more) :
    codeOf (instrs ++ rest) = .ok (code ++ more) := by
  induction instrs generalizing code with
  | nil => cases h; exact hr
  | cons instr instrs ih =>
    obtain ⟨first, hf, h⟩ := Outcome.bind_eq_ok.mp h
    obtain ⟨others, ho, h⟩ := Outcome.bind_eq_ok.mp h
    cases h
    rw [List.cons_append, codeOf, hf, ih ho]
    simp

theorem codeOf_of_append {instrs rest : List Lower.Instr} {code : List Instr}
    (h : codeOf (instrs ++ rest) = .ok code) :
    ∃ first more, codeOf instrs = .ok first ∧ codeOf rest = .ok more ∧ code = first ++ more := by
  induction instrs generalizing code with
  | nil => exact ⟨[], code, rfl, h, rfl⟩
  | cons instr instrs ih =>
    obtain ⟨here, hh, h⟩ := Outcome.bind_eq_ok.mp h
    obtain ⟨others, ho, h⟩ := Outcome.bind_eq_ok.mp h
    obtain ⟨first, more, hf, hm, rfl⟩ := ih ho
    cases h
    exact ⟨here ++ first, more, by rw [codeOf, hh, hf]; rfl, hm, by simp⟩

/-- What machine code shows, instruction by instruction, is what the register code shows. -/
theorem filterMap_codeOf {β : Type} {f : Instr → Option β} {g : Lower.Instr → List β}
    (hstep : ∀ instr code, Encoded instr code → code.filterMap f = g instr)
    {instrs : List Lower.Instr} {code : List Instr} (h : codeOf instrs = .ok code) :
    code.filterMap f = instrs.flatMap g := by
  induction instrs generalizing code with
  | nil => cases h; rfl
  | cons instr instrs ih =>
    obtain ⟨first, hf, h⟩ := Outcome.bind_eq_ok.mp h
    obtain ⟨rest, hr, h⟩ := Outcome.bind_eq_ok.mp h
    cases h
    rw [List.filterMap_append, hstep instr first (ofLower_eq_ok.mp hf), ih hr, List.flatMap_cons]

/-- **Encodable instructions have code.** -/
theorem codeOf_of_encodable {instrs : List Lower.Instr} (h : ∀ i ∈ instrs, Encodable i) :
    ∃ code, codeOf instrs = .ok code := by
  induction instrs with
  | nil => exact ⟨[], rfl⟩
  | cons instr instrs ih =>
    obtain ⟨first, hf⟩ := (h instr (by simp)).encoded
    obtain ⟨rest, hr⟩ := ih fun i hi => h i (by simp [hi])
    exact ⟨first ++ rest, by rw [codeOf, ofLower_eq_ok.mpr hf, hr]; rfl⟩

section Data
variable {ε : Type} {reject : Error → ε} {measure : String → Except ε Nat}
  {front rest : List (String × Lower.Slot)} {offset : Nat}

/-- Slots of the two types have lines in the data section, if literals can be measured. -/
theorem dataFrom_of_storable {entries : List (String × Lower.Slot)}
    (h : ∀ e ∈ entries, e.2.type = .int32 ∨ e.2.type = .string)
    (hm : ∀ e ∈ entries, e.2.type = .string → ∃ size, measure e.2.initial = .ok size)
    (offset : Nat) : ∃ lines, dataFrom reject measure offset entries = .ok lines := by
  induction entries generalizing offset with
  | nil => exact ⟨[], rfl⟩
  | cons e entries ih =>
    obtain ⟨name, type, initial⟩ := e
    obtain ⟨hfirst, hothers⟩ := List.forall_mem_cons.mp h
    obtain ⟨hsize, hsizes⟩ := List.forall_mem_cons.mp hm
    have hrest := ih hothers hsizes
    rcases hfirst with rfl | rfl
    · obtain ⟨lines, hl⟩ := hrest 0
      exact ⟨_, by simp only [dataFrom, hl]; rfl⟩
    · obtain ⟨size, hs⟩ := hsize rfl
      obtain ⟨lines, hl⟩ := hrest ((offset + size) % wordSize)
      exact ⟨_, by simp only [dataFrom, hs, Outcome.bind_ok, hl]; rfl⟩

/-- The padding before a line depends on the slots before it only, so the first slots have the first
lines. -/
theorem dataFrom_of_append {lines : List DataLine}
    (h : dataFrom reject measure offset (front ++ rest) = .ok lines) :
    ∃ first more, dataFrom reject measure offset front = .ok first ∧ lines = first ++ more := by
  induction front generalizing offset lines with
  | nil => exact ⟨[], lines, rfl, rfl⟩
  | cons e front ih =>
    obtain ⟨name, type, initial⟩ := e
    cases type with
    | int32 =>
      obtain ⟨others, ho, rfl⟩ := Outcome.map_eq_ok.mp h
      obtain ⟨first, more, hf, rfl⟩ := ih ho
      exact ⟨_, more, by simp only [dataFrom, hf]; rfl, by simp⟩
    | string =>
      obtain ⟨size, hs, h⟩ := Outcome.bind_eq_ok.mp h
      obtain ⟨others, ho, rfl⟩ := Outcome.map_eq_ok.mp h
      obtain ⟨first, more, hf, rfl⟩ := ih ho
      exact ⟨_, more, by simp only [dataFrom, hs, Outcome.bind_ok, hf]; rfl, by simp⟩
    | foreign text => cases h

/-- The first literal that cannot be measured ends the data section. -/
theorem dataFrom_of_unmeasured {lines : List DataLine} {name literal : String} {e : ε}
    (hfront : dataFrom reject measure offset front = .ok lines) (hm : measure literal = .error e) :
    dataFrom reject measure offset (front ++ (name, ⟨.string, literal⟩) :: rest) = .error e := by
  induction front generalizing offset lines with
  | nil => simp only [List.nil_append, dataFrom, hm, Outcome.bind_error]
  | cons first front ih =>
    obtain ⟨key, type, initial⟩ := first
    rw [List.cons_append]
    cases type with
    | int32 =>
      obtain ⟨others, ho, rfl⟩ := Outcome.map_eq_ok.mp hfront
      simp only [dataFrom, ih ho, Outcome.map_error]
    | string =>
      obtain ⟨size, hs, hrest⟩ := Outcome.bind_eq_ok.mp hfront
      obtain ⟨others, ho, rfl⟩ := Outcome.map_eq_ok.mp hrest
      simp only [dataFrom, hs, Outcome.bind_ok, ih ho, Outcome.map_error]
    | foreign text => cases hfront

/-- Slots of the two types have a data section. -/
theorem exists_dataSection {slots : Table Lower.Slot}
    (h : ∀ e ∈ slots.entries, e.2.type = .int32 ∨ e.2.type = .string) :
    ∃ data, dataSection slots = .ok data :=
  dataFrom_of_storable h (fun _ _ _ => ⟨_, rfl⟩) 0

end Data

/-- A program has machine code if its slots have lines and its instructions have code. -/
theorem Program.ofLower_eq_ok {p : Lower.Program} {program : Program} :
    Program.ofLower p = .ok program ↔
      dataSection p.slots = .ok program.data ∧ codeOf p.instrs = .ok program.code := by
  constructor
  · intro h
    obtain ⟨data, hdata, h⟩ := Outcome.bind_eq_ok.mp h
    obtain ⟨code, hcode, h⟩ := Outcome.bind_eq_ok.mp h
    cases h
    exact ⟨Outcome.mapError_eq_ok.mp hdata, hcode⟩
  · rintro ⟨hdata, hcode⟩
    rw [Program.ofLower, hdata, hcode]
    rfl

/-- **A program of encodable instructions on slots of the two types has a listing.** -/
theorem emit_of_encodable (o : Options) {p : Lower.Program} (hi : ∀ i ∈ p.instrs, Encodable i)
    (hs : ∀ e ∈ p.slots.entries, e.2.type = .int32 ∨ e.2.type = .string) :
    ∃ text, emit o p = .ok text := by
  obtain ⟨code, hc⟩ := codeOf_of_encodable hi
  obtain ⟨lines, hl⟩ := exists_dataSection hs
  have hprogram : Program.ofLower p = .ok ⟨lines, code⟩ := Program.ofLower_eq_ok.mpr ⟨hl, hc⟩
  exact ⟨_, by rw [emit, hprogram]; rfl⟩

end Assembly
end Risclet
