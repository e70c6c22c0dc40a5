import Risclet.Proofs.Assembly.Symbols

/-! # Branches

A call becomes a branch to the symbol that its name stands for: the symbol of the library if the
name is an intrinsic, and else the name itself.  The branches of a compiled program are those of its
calls, in order (`targets_ofLower`).

Declarations are checked against the symbols that are reserved, which are the entry label and the
symbols of the library.  So no branch of an intrinsic meets the label of a variable.  The name of
any other subroutine is compared with nothing: it can be the name of a variable, before or behind
the call, and it can be the entry label.  Branches keep clear of the data and of the entry exactly
if the statements see to it themselves (`branches_clear_iff`); where they do not, a branch leads
into the data section or back to the beginning (`branch_into_data`).
-/
namespace Risclet

/-! ## Calls -/

/-- The subroutine that a statement calls. -/
def Node.callee? : Node → Option String
  | .call name _ _ => some name
  | _ => none

/-- The subroutines that statements call, in order. -/
def Node.callees (nodes : List Node) : List String :=
  nodes.filterMap callee?

namespace Tuple

/-- The subroutine that an instruction calls. -/
def Instr.callee? : Instr → Option String
  | call name _ => some name
  | _ => none

variable {o : Options} {vars after last : Table DataType} {node : Node} {nodes : List Node}
  {code instrs : List Instr}

theorem Value.callees_eq {item : Item} (h : Value o vars node code item) :
    code.filterMap Instr.callee? = [] := by
  cases h <;> rfl

/-- A statement that is a call becomes a call, and no other does. -/
theorem Statement.callees_eq (h : Statement o vars node code after) :
    code.filterMap Instr.callee? = node.callee?.toList := by
  cases h with
  | declare => rfl
  | initialise _ _ hv _ => rw [List.filterMap_append, hv.callees_eq]; rfl
  | assign _ hv _ => rw [List.filterMap_append, hv.callees_eq]; rfl
  | call => rfl

/-- **Flattening keeps the calls.** -/
theorem Statements.callees_eq (h : Statements o vars nodes instrs last) :
    instrs.filterMap Instr.callee? = Node.callees nodes := by
  induction h with
  | nil => rfl
  | @cons _ _ _ node nodes _ _ hs _ ih =>
    have hcons : Node.callees (node :: nodes) = node.callee?.toList ++ Node.callees nodes := by
      rw [Node.callees, List.filterMap_cons]
      cases node.callee? <;> rfl
    rw [List.filterMap_append, hs.callees_eq, ih, hcons]

end Tuple

/-! ## Branches of register code -/

namespace Lower

/-- The symbol that an instruction branches to, if it does. -/
def Instr.targets : Instr → List String
  | call symbol => [symbol]
  | _ => []

variable {o : Options} {st after last : State} {instr : Tuple.Instr} {instrs : List Tuple.Instr}
  {code : List Instr} {item : Item}

theorem Loaded.targets_eq {dest : Register} {i : Instr} (h : Loaded dest item i) :
    i.targets = [] := by
  cases h <;> rfl

theorem Placed.targets_eq {next behind : Int} {r : Register} (h : Placed next item r code behind) :
    code.flatMap Instr.targets = [] := by
  cases h with
  | temp id => rfl
  | loaded hl => simp [hl.targets_eq]

/-- Only a call becomes a branch, to the symbol that the name stands for. -/
theorem Lowered.targets_eq (h : Lowered o st instr code after) :
    code.flatMap Instr.targets = (instr.callee?.map o.resolve).toList := by
  cases h with
  | fold => rfl
  | declare _ hs => cases hs <;> rfl
  | assign hs => cases hs <;> rfl
  | call hl => rw [List.flatMap_cons, hl.targets_eq]; rfl
  | binary hl hr =>
    rw [List.flatMap_append, List.flatMap_append, hl.targets_eq, hr.targets_eq]
    rfl

/-- **Lowering resolves the calls.** -/
theorem LoweredAll.targets_eq (h : LoweredAll o st instrs code last) :
    code.flatMap Instr.targets = (instrs.filterMap Tuple.Instr.callee?).map o.resolve := by
  induction h with
  | nil => rfl
  | @cons _ _ _ instr instrs _ _ hi _ ih =>
    rw [List.flatMap_append, hi.targets_eq, ih, List.filterMap_cons]
    cases instr.callee? <;> rfl

end Lower

/-! ## Branches of machine code -/

namespace Assembly

/-- The symbol that an instruction branches to. -/
def Instr.target? : Instr → Option String
  | branchLink symbol => some symbol
  | _ => none

/-- The symbols that the code of a program branches to, in order. -/
def Program.targets (p : Program) : List String :=
  p.code.filterMap Instr.target?

theorem target?_loadInteger (d : Nat) (value : Int) : (loadInteger d value).target? = none := by
  unfold loadInteger
  split <;> rfl

theorem Encoded.targets_eq {instr : Lower.Instr} {code : List Instr} (h : Encoded instr code) :
    code.filterMap Instr.target? = instr.targets := by
  cases h with
  | loadLit value _ => simp [target?_loadInteger, Lower.Instr.targets]
  | _ => rfl

section Symbols
variable {o : Options} {nodes : List Node} {p : Tuple.Program} {q : Lower.Program}
  {program : Program} {name : String}

/-- **Branches are to the symbols of the calls**, in order. -/
theorem targets_ofLower (hp : Tuple.Program.ofStatements o nodes = .ok p)
    (hq : Lower.Program.ofTuple o p = .ok q) (h : Program.ofLower q = .ok program) :
    program.targets = (Node.callees nodes).map o.resolve := by
  obtain ⟨-, hcode⟩ := Program.ofLower_eq_ok.mp h
  obtain ⟨st, last, -, hl, -⟩ := Lower.ofTuple_eq_ok.mp hq
  calc program.code.filterMap Instr.target?
      = q.instrs.flatMap Lower.Instr.targets :=
        filterMap_codeOf (fun _ _ hi => hi.targets_eq) hcode
    _ = (p.instrs.filterMap Tuple.Instr.callee?).map o.resolve := hl.targets_eq
    _ = (Node.callees nodes).map o.resolve := by
        rw [(Tuple.ofStatements_eq_ok.mp hp).callees_eq]

/-- An intrinsic stands for a symbol that is reserved. -/
theorem resolve_mem_reserved (h : o.intrinsics.contains name = true) :
    o.resolve name ∈ o.reserved := by
  obtain ⟨symbol, hs⟩ := Table.contains_eq_true.mp h
  have hvalue : symbol ∈ o.intrinsics.values :=
    List.mem_map.mpr ⟨_, Table.mem_entries_of_get? hs, rfl⟩
  rw [Options.resolve, hs]
  exact List.mem_cons_of_mem _ hvalue

theorem resolve_of_not_contains (h : o.intrinsics.contains name = false) :
    o.resolve name = name := by
  rw [Options.resolve, Table.contains_eq_false.mp h]
  rfl

/-- A branch meets the label of a variable exactly if the subroutine is not an intrinsic and has the
name of a variable itself. -/
theorem resolve_mem_declaredNames_iff (hp : Tuple.Program.ofStatements o nodes = .ok p) :
    o.resolve name ∈ Node.declaredNames nodes ↔
      o.intrinsics.contains name = false ∧ name ∈ Node.declaredNames nodes := by
  by_cases hc : o.intrinsics.contains name = true
  · -- The symbol of an intrinsic is reserved, and no declaration takes it.
    have hnot : o.resolve name ∉ Node.declaredNames nodes := by
      intro hmem
      obtain ⟨node, hnode, hd⟩ := List.mem_filterMap.mp (List.mem_eraseDups.mp hmem)
      exact (Tuple.ofStatements_eq_ok.mp hp).not_reserved hnode hd (resolve_mem_reserved hc)
    simp [hnot, hc]
  · have hc : o.intrinsics.contains name = false := by simpa using hc
    simp [resolve_of_not_contains hc, hc]

end Symbols

/-- **Branches keep clear of the labels exactly if the statements do.**  The code of accepted
statements branches to the symbols that their calls stand for, in order; the labels of the data
section are the names that they declare.  A call of an intrinsic never branches to such a label.
And no branch at all is to such a label or to the entry if and only if every subroutine that is
called and not an intrinsic has a name that no statement declares, and none stands for the entry. -/
theorem branches_clear_iff {o : Options} {nodes : List Node} {g : Generation}
    (h : generate o nodes = .ok g) :
    ∃ program, Program.ofLower g.lower = .ok program ∧ g.assembly = program.text o ∧
      program.targets = (Node.callees nodes).map o.resolve ∧
      program.labels = Node.declaredNames nodes ∧
      (∀ name ∈ Node.callees nodes, o.intrinsics.contains name = true →
        o.resolve name ∉ program.labels) ∧
      ((∀ symbol ∈ program.targets, symbol ∉ program.labels ∧ symbol ≠ entryLabel) ↔
        ∀ name ∈ Node.callees nodes,
          (o.intrinsics.contains name = false → name ∉ Node.declaredNames nodes) ∧
            o.resolve name ≠ entryLabel) := by
  obtain ⟨hp, hq, hemit⟩ := generate_eq_ok.mp h
  obtain ⟨program, hprogram, htext⟩ := Outcome.map_eq_ok.mp hemit
  have htargets := targets_ofLower hp hq hprogram
  have hlabels : program.labels = Node.declaredNames nodes := by
    rw [labels_ofLower hprogram, Lower.keys_ofTuple hp hq]
  refine ⟨program, hprogram, htext.symm, htargets, hlabels, ?_, ?_⟩
  · intro name _ hc hmem
    rw [hlabels, resolve_mem_declaredNames_iff hp, hc] at hmem
    cases hmem.1
  · rw [htargets, hlabels, List.forall_mem_map]
    refine forall₂_congr fun name _ => and_congr_left fun _ => ?_
    rw [resolve_mem_declaredNames_iff hp, not_and]

/-- A program that calls the library and a subroutine of its own. -/
def blinking : List Node :=
  [.decl "n" "Int32" (.int 3 Pos.unknown) Pos.unknown,
    .call "Blink" [.ident "n" Pos.unknown] Pos.unknown,
    .call "Output" [.ident "n" Pos.unknown] Pos.unknown,
    .decl "Output" "Int32" .absent Pos.unknown]

/-- It has a variable with the name of an intrinsic; still its branches keep clear of the data. -/
theorem branches_clear_blinking :
    ∃ g program, generate {} blinking = .ok g ∧ Program.ofLower g.lower = .ok program ∧
      program.targets = ["Blink", "print_int"] ∧ program.labels = ["n", "Output"] ∧
      ∀ symbol ∈ program.targets, symbol ∉ program.labels ∧ symbol ≠ entryLabel := by
  have hg : generate {} blinking = .ok _ := rfl
  obtain ⟨program, hprogram, -, htargets, hlabels, -, hiff⟩ := branches_clear_iff hg
  refine ⟨_, program, hg, hprogram, htargets.trans (by decide), hlabels.trans (by decide), ?_⟩
  exact hiff.mpr (by decide)

/-- A program that calls a subroutine with the name of its variable, and then one with the name of
the entry. -/
def trampoline : List Node :=
  [.decl "x" "Int32" (.int 1 Pos.unknown) Pos.unknown,
    .call "x" [.int 2 Pos.unknown] Pos.unknown,
    .call "_start" [.int 3 Pos.unknown] Pos.unknown]

/-- **A branch can lead into the data section.**  The program is accepted strictly; its code
branches to the label of its variable, which is a word in the data section, and to the entry. -/
theorem branch_into_data :
    ∃ g program, generate {} trampoline = .ok g ∧ Program.ofLower g.lower = .ok program ∧
      g.assembly = program.text {} ∧ .branchLink "x" ∈ program.code ∧
      .word "x" "1" ∈ program.data ∧ .branchLink entryLabel ∈ program.code :=
  ⟨_, _, rfl, rfl, rfl, by decide, by decide, by decide⟩

end Assembly
end Risclet
