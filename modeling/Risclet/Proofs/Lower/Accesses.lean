import Risclet.Proofs.Lower.Machine
import Risclet.Proofs.Lower.Slots
import Risclet.Proofs.Tuple.Discipline

/-! # The variables that register code accesses

Register code loads the variables that its tuple instructions read, and it stores into those that
they store into when the program runs; a literal that goes into a slot leaves nothing to do.  Main
statement: `ofTuple_accesses`.  A run does not change variables that are not accessed
(`Machine.run_memory`).
-/
namespace Risclet
namespace Lower

/-- Register code that loads or stores a variable. -/
def Accesses (code : List Instr) (name : String) : Prop :=
  ∃ i ∈ code, name ∈ i.variables

section Lists
variable {code rest : List Instr} {instr : Instr} {name : String}

@[simp] theorem accesses_nil : ¬ Accesses [] name := by
  simp [Accesses]

@[simp] theorem accesses_cons :
    Accesses (instr :: code) name ↔ name ∈ instr.variables ∨ Accesses code name := by
  simp [Accesses]

@[simp] theorem accesses_append :
    Accesses (code ++ rest) name ↔ Accesses code name ∨ Accesses rest name := by
  simp [Accesses, or_and_right, exists_or]

end Lists

/-! ## The code of items -/

section Items
variable {item : Item} {code : List Instr} {name key : String}

theorem Loaded.variables_eq {dest : Register} {instr : Instr} (h : Loaded dest item instr) :
    instr.variables = item.names := by
  cases h <;> rfl

theorem Stored.accesses (h : Stored key item code) :
    Accesses code name ↔ name ∈ item.names ∨ key = name ∧ item ≠ .absent := by
  cases h <;> simp [Instr.variables, Item.names, eq_comm]

theorem Placed.accesses {next after : Int} {r : Register} (h : Placed next item r code after) :
    Accesses code name ↔ name ∈ item.names := by
  cases h with
  | temp id => simp [Item.names]
  | loaded hl => simp [hl.variables_eq]

end Items

/-! ## The code of instructions -/

section Instructions
variable {o : Options} {st after : State} {instr : Tuple.Instr} {code : List Instr}
  {before : List Tuple.Instr} {name : String}

/-- **An instruction's code accesses what the instruction uses**, where `before` are the
instructions in front of it. -/
theorem Lowered.accesses (h : Lowered o st instr code after)
    (hbefore : ∀ key, key ∈ st.declared ↔ ∃ earlier ∈ before, earlier.Declares key) :
    Accesses code name ↔ name ∈ instr.reads ++ instr.stores before := by
  rw [List.mem_append]
  cases h with
  | @fold key type literal value hd hl _ =>
    -- A literal reads nothing, and this is the first declaration.
    have hnames : value.names = [] := by cases value <;> simp_all [Item.names, Item.literalType?]
    have hfirst : ¬ ∃ earlier ∈ before, earlier.Declares key := fun h => hd ((hbefore key).mpr h)
    simp [Tuple.Instr.reads, Tuple.Instr.mem_stores_declare, hnames, hl, hfirst]
  | @declare key type value _ hor hs =>
    have hstored : value.literalType? = none ∨ ∃ earlier ∈ before, earlier.Declares key :=
      hor.symm.imp_right (hbefore key).mp
    rw [hs.accesses, Tuple.Instr.mem_stores_declare]
    simp [Tuple.Instr.reads, hstored]
  | assign hs => rw [hs.accesses, Tuple.Instr.mem_stores_assign, Tuple.Instr.reads]
  | call hl =>
    rw [accesses_cons, hl.variables_eq]
    simp [Instr.variables, Tuple.Instr.reads, Tuple.Instr.stores]
  | binary hl hr =>
    simp [hl.accesses, hr.accesses, Instr.variables, Tuple.Instr.reads, Tuple.Instr.stores]

/-- What the code of instructions accesses, where `before` are the instructions in front of them. -/
theorem LoweredAll.accesses {last : State} {instrs : List Tuple.Instr}
    (h : LoweredAll o st instrs code last)
    (hbefore : ∀ key, key ∈ st.declared ↔ ∃ earlier ∈ before, earlier.Declares key) :
    Accesses code name ↔ Tuple.Accessed before instrs name := by
  induction h generalizing before with
  | nil => simp [Tuple.not_accessed_nil]
  | @cons st next last instr instrs code rest hi _ ih =>
    have hnext : ∀ key, key ∈ next.declared ↔
        ∃ earlier ∈ before ++ [instr], earlier.Declares key := by
      intro key
      rw [hi.mem_declared, hbefore]
      simp [Tuple.Instr.Declares, or_and_right, exists_or]
    rw [accesses_append, hi.accesses hbefore, ih hnext, Tuple.accessed_cons]

/-- **Register code accesses what the tuple program accesses when it runs.** -/
theorem ofTuple_accesses {p : Tuple.Program} {q : Program} (h : Program.ofTuple o p = .ok q) :
    Accesses q.instrs name ↔ Tuple.Accessed [] p.instrs name := by
  obtain ⟨st, last, hst, hl, -⟩ := ofTuple_eq_ok.mp h
  obtain ⟨-, rfl⟩ := ofVars_eq_ok.mp hst
  exact hl.accesses (by simp)

end Instructions

/-! ## Runs -/

section Runs
variable {env : Environment} {t t' : Machine} {name : String}

theorem Machine.step_memory {instr : Instr} (h : t.step env instr = some t')
    (hn : name ∉ instr.variables) : t'.memory name = t.memory name := by
  cases instr with
  | storeVar key address source =>
    cases h
    exact Memory.set_other _ _ (by simpa [Instr.variables] using hn)
  | binary op result left right =>
    cases op with
    | arith op => cases h; rfl
    | foreign text => cases h
  | foreign text => cases h
  | _ => cases h; rfl

/-- **A run leaves alone what it does not access.** -/
theorem Machine.run_memory {code : List Instr} (h : t.run env code = some t')
    (hn : ¬ Accesses code name) : t'.memory name = t.memory name := by
  induction code generalizing t with
  | nil => cases h; rfl
  | cons instr code ih =>
    rw [accesses_cons, not_or] at hn
    obtain ⟨mid, hstep, hrun⟩ := Option.bind_eq_some_iff.mp h
    exact (ih hrun hn.2).trans (step_memory hstep hn.1)

end Runs

end Lower
end Risclet
