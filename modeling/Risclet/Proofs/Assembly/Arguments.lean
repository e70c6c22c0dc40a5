import Risclet.Proofs.Assembly.Branches
import Risclet.Proofs.Assembly.Simulation
import Risclet.Proofs.Lower.Progress

/-! # Arguments in registers

A subroutine finds its argument in the first register.  How it comes there depends on what the
argument is: a variable is loaded with its sign, and so fills the whole register; a literal is
written to the lower half, and that clears the upper half.  The lower half is the value of the
argument in either case.  The upper halves differ for negative integers.

The code of a program falls into the codes of its statements (`CompiledAll`), and only calls have
branches.  So every branch is that of a call, and the argument is loaded right before it
(`CompiledAll.call_of_branch`).

Main statement: `argument_register`.
-/
namespace Risclet

/-- A literal below zero. -/
def Node.IsNegative : Node → Prop
  | .int value _ => value < 0
  | _ => False

namespace Assembly

/-! ## Halves of registers -/

/-- The two ways to fill a register agree on integers that are not negative. -/
theorem signExtend_eq_setWidth_iff {n : Int} (h : IsInt32 n) :
    (BitVec.ofInt 32 n).signExtend 64 = (BitVec.ofInt 32 n).setWidth 64 ↔ 0 ≤ n := by
  simp only [IsInt32, int32Min, int32Max] at h
  have hint : (BitVec.ofInt 32 n).toInt = n := by
    rw [BitVec.toInt_ofInt]
    exact Int.bmod_eq_of_le (by omega) (by omega)
  have hmsb : (BitVec.ofInt 32 n).msb = false ↔ 0 ≤ n := by
    rw [BitVec.msb_eq_toInt, hint, decide_eq_false_iff_not, Int.not_lt]
  rw [← hmsb]
  constructor
  · intro heq
    have hsign := congrArg BitVec.msb heq
    simpa [BitVec.msb_signExtend, BitVec.msb_setWidth] using hsign
  · exact BitVec.signExtend_eq_setWidth_of_msb_false

/-! ## Loading an argument -/

/-- The words at the addresses of the variables. -/
def Machine.variables (env : Environment) (u : Machine) : Memory :=
  fun name => u.bytes.word (env.address name)

/-- The code that loads an argument into the first register. -/
inductive Fetched : Node → List Instr → Prop where
  | int {value : Int} (pos : Pos) : IsInt32 value →
    Fetched (.int value pos) [loadInteger 0 value]
  | ident (name : String) (pos : Pos) :
    Fetched (.ident name pos) [.loadAddress 0 name, .loadWord 0 0]

/-- How an argument with the value `v` stands in a register. -/
structure Presents (arg : Node) (v : Word) (x : BitVec 64) : Prop where
  /-- The lower half is the value. -/
  low_eq : low x = v
  /-- The upper half is clear for a literal. -/
  literal : ∀ n pos, arg = .int n pos → x = v.setWidth 64
  /-- The upper half has the sign of the value, except for a literal below zero. -/
  signed_iff : x = v.signExtend 64 ↔ ¬ arg.IsNegative

theorem Fetched.run_eq {arg : Node} {load : List Instr} (h : Fetched arg load)
    (env : Environment) (u : Machine) :
    ∃ v x, u.run env load = some (u.setX 0 x) ∧ arg.value? (u.variables env) = some v ∧
      Presents arg v x := by
  cases h with
  | @int value pos hv =>
    refine ⟨BitVec.ofInt 32 value, (BitVec.ofInt 32 value).setWidth 64, ?_, rfl, ?_⟩
    · rw [Machine.run_cons, step_loadInteger hv]
      rfl
    · refine ⟨low_setWidth _, fun _ _ _ => rfl, ?_⟩
      rw [eq_comm, signExtend_eq_setWidth_iff hv, Node.IsNegative, Int.not_lt]
  | ident name pos =>
    refine ⟨u.variables env name, (u.variables env name).signExtend 64, ?_, rfl, ?_⟩
    · simp [Machine.step, Machine.variables]
    · exact ⟨low_signExtend _, by simp, by simp [Node.IsNegative]⟩

/-! ## Code of statements -/

/-- The code of a statement. -/
inductive Compiled (o : Options) (node : Node) (block : List Instr) : Prop where
  | intro {vars next : Table DataType} {st after : Lower.State} {instrs : List Tuple.Instr}
      {code : List Lower.Instr} :
      Tuple.Statement o vars node instrs next → Lower.LoweredAll o st instrs code after →
      codeOf code = .ok block → Compiled o node block

/-- The code of statements in order. -/
inductive CompiledAll (o : Options) : List Node → List Instr → Prop where
  | nil : CompiledAll o [] []
  | cons {node : Node} {nodes : List Node} {block rest : List Instr} :
      Compiled o node block → CompiledAll o nodes rest →
        CompiledAll o (node :: nodes) (block ++ rest)

section Compiled
variable {o : Options} {node : Node} {nodes : List Node} {block code : List Instr}

/-- **Code falls into the codes of the statements.** -/
theorem compiledAll_of_statements {vars last : Table DataType} {instrs : List Tuple.Instr}
    {st after : Lower.State} {lower : List Lower.Instr}
    (hs : Tuple.Statements o vars nodes instrs last) (hl : Lower.LoweredAll o st instrs lower after)
    (hcode : codeOf lower = .ok code) : CompiledAll o nodes code := by
  induction hs generalizing st lower code with
  | nil =>
    cases hl
    cases hcode
    exact .nil
  | cons hnode _ ih =>
    obtain ⟨first, more, mid, hfirst, hmore, rfl⟩ := hl.of_append
    obtain ⟨block, rest, hblock, hrest, rfl⟩ := codeOf_of_append hcode
    exact .cons (.intro hnode hfirst hblock) (ih hmore hrest)

theorem CompiledAll.of_append {front back : List Node} (h : CompiledAll o (front ++ back) code) :
    ∃ first rest, CompiledAll o front first ∧ CompiledAll o back rest ∧ code = first ++ rest := by
  induction front generalizing code with
  | nil => exact ⟨[], code, .nil, h, rfl⟩
  | cons node front ih =>
    cases h with
    | @cons _ _ block _ hnode hrest =>
      obtain ⟨first, rest, hfirst, hback, rfl⟩ := ih hrest
      exact ⟨block ++ first, rest, .cons hnode hfirst, hback, (List.append_assoc _ _ _).symm⟩

/-- Only a call has a branch. -/
theorem Compiled.targets_eq (h : Compiled o node block) :
    block.filterMap Instr.target? = (node.callee?.map o.resolve).toList := by
  obtain ⟨hs, hl, hcode⟩ := h
  rw [filterMap_codeOf (fun _ _ hi => hi.targets_eq) hcode, hl.targets_eq, hs.callees_eq]
  cases node.callee? <;> rfl

theorem CompiledAll.targets_eq (h : CompiledAll o nodes code) :
    code.filterMap Instr.target? = (Node.callees nodes).map o.resolve := by
  induction h with
  | nil => rfl
  | @cons node nodes _ _ hnode _ ih =>
    rw [List.filterMap_append, hnode.targets_eq, ih, Node.callees, Node.callees,
      List.filterMap_cons]
    cases node.callee? <;> rfl

/-- A call loads its one argument and branches. -/
theorem Compiled.call {name : String} {args : List Node} {pos : Pos}
    (h : Compiled o (.call name args pos) block) :
    ∃ arg load, args = [arg] ∧ Fetched arg load ∧
      block = load ++ [.branchLink (o.resolve name)] := by
  obtain ⟨hs, hl, hcode⟩ := h
  cases hs with
  | @call _ arg _ item hop =>
    cases hl.single with
    | call hload =>
      refine ⟨arg, ?_⟩
      cases hop with
      | int hv =>
        cases hload
        cases hcode
        exact ⟨_, rfl, .int _ hv, rfl⟩
      | ident _ =>
        cases hload
        cases hcode
        exact ⟨_, rfl, .ident _ _, rfl⟩

/-- A literal is stored in three steps. -/
theorem Compiled.assign {name : String} {value : Int} {place pos : Pos}
    (h : Compiled o (.assign name (.int value place) pos) block) :
    IsInt32 value ∧ block = [loadInteger 10 value, .loadAddress 9 name, .storeWord 10 9] := by
  obtain ⟨hs, hl, hcode⟩ := h
  cases hs with
  | assign _ hvalue _ =>
    cases hvalue with
    | operand hop =>
      cases hop with
      | int hv =>
        cases hl.single with
        | assign hstore =>
          cases hstore
          cases hcode
          exact ⟨hv, rfl⟩

end Compiled

/-! ## Branches of calls -/

/-- Where code is cut at a branch, it is known from the number of branches before. -/
theorem branch_inj {before other after rest : List Instr} {symbol target : String}
    (h : before ++ .branchLink symbol :: after = other ++ .branchLink target :: rest)
    (hcount : (before.filterMap Instr.target?).length = (other.filterMap Instr.target?).length) :
    before = other ∧ symbol = target := by
  induction before generalizing other with
  | nil =>
    cases other with
    | nil =>
      cases h
      exact ⟨rfl, rfl⟩
    | cons instr other =>
      obtain ⟨rfl, -⟩ := List.cons.inj h
      cases hcount
  | cons instr before ih =>
    cases other with
    | nil =>
      obtain ⟨rfl, -⟩ := List.cons.inj h
      cases hcount
    | cons instr' other =>
      obtain ⟨rfl, htail⟩ := List.cons.inj h
      have hrest : (before.filterMap Instr.target?).length =
          (other.filterMap Instr.target?).length := by
        rw [List.filterMap_cons, List.filterMap_cons] at hcount
        cases hi : instr.target? <;> simpa [hi] using hcount
      obtain ⟨rfl, rfl⟩ := ih htail hrest
      exact ⟨rfl, rfl⟩

theorem Fetched.targets_eq {arg : Node} {load : List Instr} (h : Fetched arg load) :
    load.filterMap Instr.target? = [] := by
  cases h with
  | int => simp [target?_loadInteger]
  | ident => rfl

section Calls
variable {o : Options} {nodes : List Node} {code : List Instr}

/-- The code of a call is behind the code of the statements before it. -/
theorem CompiledAll.code_of_call {front back : List Node} {name : String} {args : List Node}
    {pos : Pos} (h : CompiledAll o (front ++ .call name args pos :: back) code) :
    ∃ arg first load rest, args = [arg] ∧ Fetched arg load ∧
      code = first ++ load ++ .branchLink (o.resolve name) :: rest ∧
      (first ++ load).filterMap Instr.target? = (Node.callees front).map o.resolve := by
  obtain ⟨first, rest, hfirst, hrest, rfl⟩ := h.of_append
  cases hrest with
  | @cons _ _ _ others hcall _ =>
    obtain ⟨arg, load, rfl, hload, rfl⟩ := hcall.call
    refine ⟨arg, first, load, others, rfl, hload, by simp, ?_⟩
    rw [List.filterMap_append, hfirst.targets_eq, hload.targets_eq, List.append_nil]

/-- **A branch is that of a call**, and before it the argument is loaded. -/
theorem CompiledAll.call_of_branch (h : CompiledAll o nodes code) {before after : List Instr}
    {symbol : String} (hcode : code = before ++ .branchLink symbol :: after) :
    ∃ front name arg pos back first load, nodes = front ++ .call name [arg] pos :: back ∧
      symbol = o.resolve name ∧ before = first ++ load ∧ Fetched arg load ∧
      before.filterMap Instr.target? = (Node.callees front).map o.resolve := by
  -- There are as many calls before it as there are branches.
  have htargets := h.targets_eq
  rw [hcode, List.filterMap_append, List.filterMap_cons] at htargets
  obtain ⟨calls, others, hcalls, hbefore, hothers⟩ := List.map_eq_append_iff.mp htargets.symm
  obtain ⟨name, others, rfl, rfl, -⟩ := List.map_eq_cons_iff.mp hothers
  obtain ⟨done, todo, rfl, hdone, htodo⟩ := List.filterMap_eq_append_iff.mp hcalls
  obtain ⟨between, node, back, rfl, hbetween, hnode, -⟩ := List.filterMap_eq_cons_iff.mp htodo
  obtain ⟨args, pos, rfl⟩ : ∃ args pos, node = .call name args pos := by
    cases node with
    | call _ args pos => cases hnode; exact ⟨args, pos, rfl⟩
    | _ => cases hnode
  have hfront : Node.callees (done ++ between) = calls := by
    rw [Node.callees, List.filterMap_append, hdone, List.filterMap_eq_nil_iff.mpr hbetween,
      List.append_nil]
  rw [← List.append_assoc] at h
  obtain ⟨arg, first, load, rest, rfl, hload, hsplit, hcount⟩ := h.code_of_call
  obtain ⟨rfl, -⟩ := branch_inj (hcode.symm.trans hsplit) (by rw [hcount, hfront, hbefore])
  exact ⟨done ++ between, name, arg, pos, back, first, load, by simp, rfl, rfl, hload, hcount⟩

/-- A literal is stored in a variable, and the variable is loaded as an argument. -/
theorem CompiledAll.code_of_assigned {front back : List Node} {x name : String} {n : Int}
    {place pos place' pos' : Pos}
    (h : CompiledAll o
      (front ++ .assign x (.int n place) pos :: .call name [.ident x place'] pos' :: back) code) :
    ∃ first before rest, IsInt32 n ∧ code = before ++ .branchLink (o.resolve name) :: rest ∧
      before = first ++ ([loadInteger 10 n, .loadAddress 9 x, .storeWord 10 9] ++
        [.loadAddress 0 x, .loadWord 0 0]) ∧
      before.filterMap Instr.target? = (Node.callees front).map o.resolve := by
  obtain ⟨first, rest, hfirst, hrest, rfl⟩ := h.of_append
  cases hrest with
  | cons hassign hrest =>
    cases hrest with
    | @cons _ _ _ others hcall _ =>
      obtain ⟨hn, rfl⟩ := hassign.assign
      obtain ⟨arg, load, harg, hload, rfl⟩ := hcall.call
      have hloaded := hload.targets_eq
      cases harg
      cases hload
      refine ⟨first, _, others, hn, by simp, rfl, ?_⟩
      rw [List.filterMap_append, List.filterMap_append, hfirst.targets_eq, hassign.targets_eq,
        hloaded]
      simp [Node.callee?]

end Calls

/-! ## Runs -/

theorem Encoded.exists_run {instr : Lower.Instr} {code : List Instr} (h : Encoded instr code)
    (hl : ∀ v ∈ instr.literals, IsInt32 v) (env : Environment) (u : Machine) :
    ∃ u', u.run env code = some u' := by
  cases h with
  | loadLit value _ =>
    have hv : IsInt32 value := hl value (by simp [Lower.Instr.literals])
    exact ⟨_, by rw [Machine.run_cons, step_loadInteger hv]; rfl⟩
  | _ => exact ⟨_, rfl⟩

/-- **Code that loads 32-bit integers only runs to its end.** -/
theorem exists_run {instrs : List Lower.Instr} {code : List Instr}
    (hl : ∀ i ∈ instrs, ∀ v ∈ i.literals, IsInt32 v) (hcode : codeOf instrs = .ok code)
    (env : Environment) (u : Machine) : ∃ u', u.run env code = some u' := by
  induction instrs generalizing code u with
  | nil =>
    cases hcode
    exact ⟨u, rfl⟩
  | cons instr instrs ih =>
    obtain ⟨hi, hinstrs⟩ := List.forall_mem_cons.mp hl
    obtain ⟨first, hfirst, h⟩ := Outcome.bind_eq_ok.mp hcode
    obtain ⟨rest, hrest, h⟩ := Outcome.bind_eq_ok.mp h
    cases h
    obtain ⟨u₁, hu₁⟩ := (ofLower_eq_ok.mp hfirst).exists_run hi env u
    obtain ⟨u₂, hu₂⟩ := ih hinstrs hrest u₁
    exact ⟨u₂, by rw [Machine.run_append, hu₁]; exact hu₂⟩

/-- Code that runs to its end comes to a state in which a part of it begins. -/
theorem Machine.exists_runLines {env : Environment} {u last : Machine}
    {first part rest : List Instr} (h : u.run env (first ++ part ++ rest) = some last) :
    ∃ mid : Machine, ∀ u', mid.run env part = some u' →
      u.runLines env ((first ++ part).map Instr.text) = some u' := by
  rw [List.append_assoc] at h
  obtain ⟨mid, hmid⟩ := exists_run_of_append h
  refine ⟨mid, fun u' hu' => ?_⟩
  rw [runLines_text, run_append, hmid]
  exact hu'

/-- A literal that was stored in a variable is loaded from it with its sign. -/
theorem run_store_load {value : Int} (hv : IsInt32 value) (name : String) (env : Environment)
    (u : Machine) :
    ∃ u', u.run env ([loadInteger 10 value, .loadAddress 9 name, .storeWord 10 9] ++
        [.loadAddress 0 name, .loadWord 0 0]) = some u' ∧
      u'.regs 0 = (BitVec.ofInt 32 value).signExtend 64 := by
  refine ⟨_, by rw [List.cons_append, Machine.run_cons, step_loadInteger hv]; rfl, ?_⟩
  simp [Machine.setW, Machine.setX_other, Bytes.word_setWord]

/-! ## The first register -/

/-- **What a subroutine finds in the first register.**  Statements that are accepted have code in
which every branch is that of a call, in order.  From whatever state the lines before the branch
begin, they run to the end; then the lower half of the first register is the value of the argument,
where variables have the words that memory holds for them.  The whole register is this value with
its sign exactly if the argument is not a literal below zero; for every literal the upper half is
clear.

So the literal `n` and a variable to which `n` has just been assigned have the same lower half, and
the same register exactly if `n` is not negative. -/
theorem argument_register {o : Options} {nodes : List Node} {g : Generation}
    (h : generate o nodes = .ok g) :
    ∃ program, Program.ofLower g.lower = .ok program ∧ g.assembly = program.text o ∧
      (∀ before symbol after, program.code = before ++ .branchLink symbol :: after →
        ∃ front name arg pos back, nodes = front ++ .call name [arg] pos :: back ∧
          symbol = o.resolve name ∧
          before.filterMap Instr.target? = (Node.callees front).map o.resolve ∧
          ∀ (env : Environment) (u : Machine), ∃ u' v,
            u.runLines env (before.map Instr.text) = some u' ∧
            arg.value? (u'.variables env) = some v ∧ Presents arg v (u'.regs 0)) ∧
      ∀ front x n place pos name place' pos' back,
        nodes = front ++ .assign x (.int n place) pos :: .call name [.ident x place'] pos' :: back →
        ∃ before after, program.code = before ++ .branchLink (o.resolve name) :: after ∧
          before.filterMap Instr.target? = (Node.callees front).map o.resolve ∧
          ∀ (env : Environment) (u : Machine), ∃ u',
            u.runLines env (before.map Instr.text) = some u' ∧
            u'.regs 0 = (BitVec.ofInt 32 n).signExtend 64 ∧
            (u'.regs 0 = (BitVec.ofInt 32 n).setWidth 64 ↔ 0 ≤ n) := by
  obtain ⟨hp, hq, hemit⟩ := generate_eq_ok.mp h
  obtain ⟨program, hprogram, htext⟩ := Outcome.map_eq_ok.mp hemit
  obtain ⟨-, hcode⟩ := Program.ofLower_eq_ok.mp hprogram
  obtain ⟨_, _, -, hl, -⟩ := Lower.ofTuple_eq_ok.mp hq
  have hall := compiledAll_of_statements (Tuple.ofStatements_eq_ok.mp hp) hl hcode
  have hruns := exists_run (fun i hi => ((Lower.tame_ofTuple hp hq).1 i hi).literals) hcode
  refine ⟨program, hprogram, htext.symm, ?_, ?_⟩
  · intro before symbol after hsplit
    obtain ⟨front, name, arg, pos, back, first, load, hnodes, hsymbol, rfl, hload, htargets⟩ :=
      hall.call_of_branch hsplit
    refine ⟨front, name, arg, pos, back, hnodes, hsymbol, htargets, fun env u => ?_⟩
    obtain ⟨last, hlast⟩ := hruns env u
    obtain ⟨mid, hmid⟩ := Machine.exists_runLines (hsplit ▸ hlast)
    obtain ⟨v, x, hrun, hvalue, hpresents⟩ := hload.run_eq env mid
    refine ⟨mid.setX 0 x, v, hmid _ hrun, hvalue, ?_⟩
    rwa [Machine.setX_self]
  · rintro front x n place pos name place' pos' back rfl
    obtain ⟨first, before, rest, hn, hsplit, rfl, htargets⟩ := hall.code_of_assigned
    refine ⟨_, rest, hsplit, htargets, fun env u => ?_⟩
    obtain ⟨last, hlast⟩ := hruns env u
    obtain ⟨mid, hmid⟩ := Machine.exists_runLines (hsplit ▸ hlast)
    obtain ⟨u', hrun, hregister⟩ := run_store_load hn x env mid
    refine ⟨u', hmid u' hrun, hregister, ?_⟩
    rw [hregister, signExtend_eq_setWidth_iff hn]

/-- A number that is put out from a variable and then as a literal. -/
def twice : List Node :=
  [.decl "x" "Int32" .absent Pos.unknown, .assign "x" (.int (-70000) Pos.unknown) Pos.unknown,
    .call "Output" [.ident "x" Pos.unknown] Pos.unknown,
    .call "Output" [.int (-70000) Pos.unknown] Pos.unknown]

/-- The library is called with it twice, with the same lower half and with different upper
halves. -/
theorem argument_register_twice :
    ∃ g program, generate {} twice = .ok g ∧ Program.ofLower g.lower = .ok program ∧
      (∃ before after, program.code = before ++ .branchLink "print_int" :: after ∧
        ∀ (env : Environment) (u : Machine), ∃ u',
          u.runLines env (before.map Instr.text) = some u' ∧ u'.regs 0 = 0xFFFFFFFFFFFEEE90#64) ∧
      ∃ before, program.code = before ++ [.branchLink "print_int"] ∧
        ∀ (env : Environment) (u : Machine), ∃ u',
          u.runLines env (before.map Instr.text) = some u' ∧ u'.regs 0 = 0x00000000FFFEEE90#64 := by
  have hg : generate {} twice = .ok _ := rfl
  obtain ⟨program, hprogram, -, hevery, hassigned⟩ := argument_register hg
  refine ⟨_, program, hg, hprogram, ?_, ?_⟩
  · obtain ⟨before, after, hcode, -, hrun⟩ := hassigned [_] _ _ _ _ _ _ _ [_] rfl
    refine ⟨before, after, hcode, fun env u => ?_⟩
    obtain ⟨u', hu', hregister, -⟩ := hrun env u
    exact ⟨u', hu', hregister.trans (by decide)⟩
  · have hcode : program.code = [loadInteger 10 (-70000), .loadAddress 9 "x", .storeWord 10 9,
        .loadAddress 0 "x", .loadWord 0 0, .branchLink "print_int", loadInteger 0 (-70000)] ++
        [.branchLink "print_int"] := by
      cases hprogram
      rfl
    obtain ⟨front, name, arg, pos, back, hnodes, -, htargets, hrun⟩ := hevery _ _ _ hcode
    refine ⟨_, hcode, fun env u => ?_⟩
    obtain ⟨u', v, hu', hv, hpresents⟩ := hrun env u
    refine ⟨u', hu', ?_⟩
    -- One branch is before this one, so this is the branch of the last statement.
    rcases front with _ | ⟨_, _ | ⟨_, _ | ⟨_, _ | ⟨_, front⟩⟩⟩⟩
    · cases hnodes
    · cases hnodes
    · cases hnodes
      cases htargets
    · cases hnodes
      cases hv
      exact (hpresents.literal _ _ rfl).trans (by decide)
    · have hlength := congrArg List.length hnodes
      simp [twice] at hlength

/-- **A literal below zero has no sign in the upper half.**  The program is accepted, and its
argument is `-1`; but the first register is `2 ^ 32 - 1`. -/
theorem negative_literal_zero_extended :
    ∃ g program u, generate {} [.call "Output" [.int (-1) Pos.unknown] Pos.unknown] = .ok g ∧
      Program.ofLower g.lower = .ok program ∧
      program.code = [.moveImmediate 0 (-1), .branchLink "print_int"] ∧
      Machine.runLines ⟨fun _ => 0, fun _ _ => 0⟩ ⟨fun _ => 0, fun _ => 0, []⟩ ["mov w0, #-1"] =
        some u ∧
      u.regs 0 = 0x00000000FFFFFFFF#64 ∧ (-1 : Word).signExtend 64 = 0xFFFFFFFFFFFFFFFF#64 := by
  have htext : ["mov w0, #-1"] = [Instr.moveImmediate 0 (-1)].map Instr.text := by
    decide +kernel
  rw [htext, Machine.runLines_text]
  refine ⟨_, _, _, rfl, rfl, rfl, rfl, ?_, ?_⟩
  · decide
  · decide

end Assembly
end Risclet
