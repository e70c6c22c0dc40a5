import Risclet.Proofs.Assembly.Code
import Risclet.Proofs.Assembly.Machine
import Risclet.Proofs.Lower.Machine

/-! # Machine code simulates register instructions

Symbolic registers of 32 bits are the lower halves of machine registers, and variables are words in
memory at the addresses of their symbols (`Agrees`).  The upper halves are of no account: a variable
is loaded with its sign, a copy takes all 64 bits, and operations clear the upper half, but nothing
except an address is ever read from it.

The simulation rests on two facts.  Different symbolic registers have different machine registers,
so that setting one leaves the others alone; and the words of different symbols have no byte in
common, so that storing one leaves the others alone.  Only a store through the register that is
itself stored would go wrong: its address is loaded before its value is taken.
-/
namespace Risclet

/-- An instruction that does not need one register for an address and for the value that is stored
there. -/
def Lower.Instr.SparesSource : Instr → Prop
  | storeVar _ address source => address ≠ source
  | _ => True

namespace Assembly

/-- An instruction whose code does what it does. -/
structure Faithful (instr : Lower.Instr) : Prop extends Encodable instr where
  literals : ∀ v ∈ instr.literals, IsInt32 v
  sparesSource : instr.SparesSource

/-- The machine agrees with the register machine on registers, on the variables for which `symbol`
holds, and on the calls so far. -/
structure Agrees (symbol : String → Prop) (address : String → BitVec 64) (t : Lower.Machine)
    (u : Machine) : Prop where
  regs : ∀ r n, physical r = .ok n → low (u.regs n) = t.regs r
  memory : ∀ name, symbol name → u.bytes.word (address name) = t.memory name
  events : u.events = t.events

/-- Environments in which symbols have the same addresses, and in which calls leave registers that
agree. -/
structure Matches (env : Lower.Environment) (menv : Environment) : Prop where
  address : menv.address = env.address
  after : ∀ k r n, physical r = .ok n → low (menv.after k n) = env.after k r

/-- Different symbols have words that have no byte in common. -/
def Separate (symbol : String → Prop) (address : String → BitVec 64) : Prop :=
  ∀ name other, symbol name → symbol other → name ≠ other →
    Apart (address name) (address other)

section Steps
variable {symbol : String → Prop} {address : String → BitVec 64} {t : Lower.Machine} {u : Machine}

/-! ## Registers and memory -/

/-- A register that is set on both sides agrees with its machine register, and no other is
changed. -/
theorem Agrees.setX (h : Agrees symbol address t u) {r : Register} {n : Nat}
    (hr : physical r = .ok n) {x : BitVec 64} {v : Word} (hx : low x = v) :
    Agrees symbol address (t.setReg r v) (u.setX n x) := by
  refine ⟨fun key m hm => ?_, h.memory, h.events⟩
  by_cases hk : key = r
  · subst hk
    obtain rfl : n = m := Except.ok.inj (hr.symm.trans hm)
    simp [Lower.Machine.setReg, hx]
  · have hne : m ≠ n := by
      rintro rfl
      exact hk (physical_injective hm hr)
    rw [Machine.setX_other _ _ hne, h.regs key m hm]
    exact (Lower.Registers.set_other _ _ hk).symm

theorem Agrees.setW (h : Agrees symbol address t u) {r : Register} {n : Nat}
    (hr : physical r = .ok n) (v : Word) : Agrees symbol address (t.setReg r v) (u.setW n v) :=
  h.setX hr (low_setWidth v)

/-- A word that is stored on both sides agrees, and no other is changed. -/
theorem Agrees.store (h : Agrees symbol address t u) (hsep : Separate symbol address)
    {name : String} (hn : symbol name) (v : Word) :
    Agrees symbol address { t with toWorld := t.toWorld.store name v }
      { u with bytes := u.bytes.setWord (address name) v } := by
  refine ⟨h.regs, fun key hk => ?_, h.events⟩
  by_cases he : key = name
  · subst he
    simp [World.store, Bytes.word_setWord]
  · simp only [World.store, Memory.set_other _ _ he]
    rw [Bytes.word_setWord_other _ _ (hsep key name hk hn he)]
    exact h.memory key hk

/-- Every 32-bit integer can be loaded in one of the two ways. -/
theorem step_loadInteger {value : Int} (h : IsInt32 value) (env : Environment) (d : Nat) :
    u.step env (loadInteger d value) = some (u.setW d (BitVec.ofInt 32 value)) := by
  simp only [IsInt32, int32Min, int32Max] at h
  by_cases hi : immediateMin ≤ value ∧ value ≤ immediateMax
  · rw [loadInteger, if_pos hi]
    simp only [immediateMin, immediateMax] at hi
    exact if_pos (by omega)
  · rw [loadInteger, if_neg hi]
    exact if_pos (by omega)

/-! ## One instruction -/

/-- **One instruction keeps the machines in agreement.** -/
theorem Faithful.simulates {instr : Lower.Instr} {code : List Instr} {env : Lower.Environment}
    {menv : Environment} (hi : Faithful instr) (hcode : Encoded instr code)
    (hvars : ∀ name ∈ instr.variables, symbol name) (henv : Matches env menv)
    (hsep : Separate symbol env.address) (h : Agrees symbol env.address t u) :
    ∃ t' u', t.step env instr = some t' ∧ u.run menv code = some u' ∧
      Agrees symbol env.address t' u' := by
  cases hcode with
  | call name =>
    have harg : low (u.regs 0) = t.regs (.param 0) := h.regs _ _ rfl
    refine ⟨_, _, rfl, rfl, ?_, h.memory, ?_⟩
    · rw [h.events]
      exact henv.after t.events.length
    · simp [World.call, h.events, harg]
  | @binary op result left right d l r hd hl hr =>
    refine ⟨_, _, rfl, rfl, ?_⟩
    rw [operate_eq_eval, h.regs left l hl, h.regs right r hr]
    exact h.setW hd _
  | @copy dest source d s hd hs => exact ⟨_, _, rfl, rfl, h.setX hd (h.regs source s hs)⟩
  | @loadLit dest d value hd =>
    have hv : IsInt32 value := hi.literals value (by simp [Lower.Instr.literals])
    refine ⟨_, _, rfl, ?_, h.setW hd _⟩
    rw [Machine.run_cons, step_loadInteger hv]
    rfl
  | @loadVar dest d name hd =>
    -- The register holds the address first and then the word that is there.
    have hword := h.memory name (hvars name (by simp [Lower.Instr.variables]))
    refine ⟨_, u.setX d ((t.memory name).signExtend 64), rfl, ?_, h.setX hd (low_signExtend _)⟩
    simp only [Machine.run_cons, Machine.run_nil, Machine.step, Option.bind_some,
      Machine.setX_self, Machine.setX_bytes, Machine.setX_setX, henv.address, hword]
  | @storeVar dest source a s name ha hs =>
    -- Loading the address leaves the source alone, since that is another register.
    have hne : s ≠ a := by
      rintro rfl
      exact hi.sparesSource (physical_injective ha hs)
    have hn : symbol name := hvars name (by simp [Lower.Instr.variables])
    have hset := h.setX ha (show low (env.address name) = (env.address name).setWidth 32 from rfl)
    refine ⟨_, _, rfl, ?_, hset.store hsep hn (t.regs source)⟩
    simp only [Machine.run_cons, Machine.run_nil, Machine.step, Option.bind_some,
      Machine.setX_self, Machine.setX_other _ _ hne, henv.address, h.regs source s hs]

end Steps

/-! ## Runs -/

section Runs
variable {symbol : String → Prop} {env : Lower.Environment} {menv : Environment}
  {t : Lower.Machine} {u : Machine} {instrs : List Lower.Instr}

/-- **A run keeps the machines in agreement.** -/
theorem run_simulates (hinstrs : ∀ i ∈ instrs, Faithful i)
    (hvars : ∀ i ∈ instrs, ∀ name ∈ i.variables, symbol name) (henv : Matches env menv)
    (hsep : Separate symbol env.address) (h : Agrees symbol env.address t u) :
    ∃ code t' u', codeOf instrs = .ok code ∧ t.run env instrs = some t' ∧
      u.run menv code = some u' ∧ Agrees symbol env.address t' u' := by
  induction instrs generalizing t u with
  | nil => exact ⟨[], t, u, rfl, rfl, rfl, h⟩
  | cons instr instrs ih =>
    obtain ⟨hi, hinstrs⟩ := List.forall_mem_cons.mp hinstrs
    obtain ⟨hv, hvars⟩ := List.forall_mem_cons.mp hvars
    obtain ⟨first, hfirst⟩ := hi.encoded
    obtain ⟨t₁, u₁, ht, hu, h₁⟩ := hi.simulates hfirst hv henv hsep h
    obtain ⟨rest, t₂, u₂, hrest, ht', hu', h₂⟩ := ih hinstrs hvars h₁
    refine ⟨first ++ rest, t₂, u₂, ?_, ?_, ?_, h₂⟩
    · rw [codeOf, ofLower_eq_ok.mpr hfirst, hrest]
      rfl
    · rw [Lower.Machine.run_cons, ht]
      exact ht'
    · rw [Machine.run_append, hu]
      exact hu'

/-- **Machine code simulates register instructions.**  Instructions with faithful code are
assembled, and after any number of them the machine that has run the lines of their code agrees with
the machine that has done the instructions, if the two agreed in the beginning. -/
theorem emission_simulates (hinstrs : ∀ i ∈ instrs, Faithful i)
    (hvars : ∀ i ∈ instrs, ∀ name ∈ i.variables, symbol name) (henv : Matches env menv)
    (hsep : Separate symbol env.address) (h : Agrees symbol env.address t u) :
    ∃ code, codeOf instrs = .ok code ∧ ∀ done rest, instrs = done ++ rest →
      ∃ first second t' u', codeOf done = .ok first ∧ code = first ++ second ∧
        t.run env done = some t' ∧ u.runLines menv (first.map Instr.text) = some u' ∧
        Agrees symbol env.address t' u' := by
  obtain ⟨code, hcode⟩ := codeOf_of_encodable fun i hi => (hinstrs i hi).toEncodable
  refine ⟨code, hcode, ?_⟩
  rintro done rest rfl
  simp only [List.forall_mem_append] at hinstrs hvars
  obtain ⟨first, t', u', hfirst, ht, hu, h'⟩ := run_simulates hinstrs.1 hvars.1 henv hsep h
  obtain ⟨second, hsecond⟩ := codeOf_of_encodable fun i hi => (hinstrs.2 i hi).toEncodable
  refine ⟨first, second, t', u', hfirst, ?_, ht, ?_, h'⟩
  · exact Except.ok.inj (hcode.symm.trans (codeOf_append hfirst hsecond))
  · rw [Machine.runLines_text]
    exact hu

end Runs

/-- Half of an integer that is too long for `mov`: it is put into one variable, and its half into
another. -/
def half : List Lower.Instr :=
  [.loadLit (.var 1) (-65537), .storeVar "x" (.var 0) (.var 1), .loadVar "x" (.var 0),
    .loadLit (.var 1) 2, .binary (.arith .divide) (.temp 0) (.var 0) (.var 1),
    .storeVar "y" (.var 0) (.temp 0), .copy (.param 0) (.temp 0), .call "print_int"]

/-- Where the two variables are. -/
def halfAddress (name : String) : BitVec 64 :=
  if name = "x" then 0 else 4

/-- On a machine that begins with zeros everywhere, its lines put out the half and leave it in
memory. -/
theorem emission_simulates_half :
    ∃ code u, codeOf half = .ok code ∧
      Machine.runLines ⟨halfAddress, fun _ _ => 0⟩ ⟨fun _ => 0, fun _ => 0, []⟩
        (code.map Instr.text) = some u ∧
      u.bytes.word 4 = -32768 ∧ u.events = [⟨"print_int", -32768⟩] := by
  have hfaithful : ∀ i ∈ half, Faithful i := by
    have hencodable : ∀ i ∈ half, i.Known ∧ ∀ r ∈ i.registers, InBank r := by decide
    have hliterals : ∀ i ∈ half, ∀ v ∈ i.literals, IsInt32 v := by decide
    have hspares : ∀ i ∈ half, i.SparesSource := by
      simp [half, Lower.Instr.SparesSource, Register.var, Register.temp]
    intro i hi
    exact ⟨⟨(hencodable i hi).1, (hencodable i hi).2⟩, hliterals i hi, hspares i hi⟩
  have hvars : ∀ i ∈ half, ∀ name ∈ i.variables, name = "x" ∨ name = "y" := by
    simp [half, Lower.Instr.variables]
  have hsep : Separate (fun name => name = "x" ∨ name = "y") halfAddress := by
    rintro name other (rfl | rfl) (rfl | rfl) hne
    · exact absurd rfl hne
    · simp [Apart, cell, halfAddress]
    · simp [Apart, cell, halfAddress]
    · exact absurd rfl hne
  have henv : Matches ⟨halfAddress, fun _ _ => 0⟩ ⟨halfAddress, fun _ _ => 0⟩ :=
    ⟨rfl, fun _ _ _ _ => rfl⟩
  have hstart : Agrees (fun name => name = "x" ∨ name = "y") halfAddress
      ⟨World.start, fun _ => 0⟩ ⟨fun _ => 0, fun _ => 0, []⟩ :=
    ⟨fun _ _ _ => rfl, fun _ _ => by simp [Bytes.word, World.start], rfl⟩
  obtain ⟨code, hcode, hall⟩ := emission_simulates hfaithful hvars henv hsep hstart
  obtain ⟨first, second, t, u, hfirst, -, ht, hu, h⟩ := hall half [] (by simp)
  obtain rfl : code = first := Except.ok.inj (hcode.symm.trans hfirst)
  cases ht
  exact ⟨code, u, hcode, hu, (h.memory "y" (.inr rfl)).trans (by decide),
    h.events.trans (by decide)⟩

end Assembly
end Risclet
