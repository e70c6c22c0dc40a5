import Risclet.Lower.Build
import Risclet.Proofs.Outcome

/-! # The rules of lowering

What the tuple instructions that are accepted become, as rules.  `Loaded`, `Stored` and `Placed`
are the three ways in which an item meets a register: it is loaded into one, stored into a variable
through one, or put where an operation can take it.  `Lowered o st instr code after` says that
`instr` becomes `code` and takes the state `st` to `after`; `LoweredAll` says it of a list.

Main statements: the functions succeed exactly where the rules apply (`lowerInstr_eq_ok`,
`ofTuple_eq_ok`), and a failure in a list is the failure of its first bad instruction
(`lowerAll_append`).
-/
namespace Risclet
namespace Lower

/-- The instruction that loads an item into a register. -/
inductive Loaded (dest : Register) : Item → Instr → Prop where
  | int (value : Int) : Loaded dest (.int value) (.loadLit dest value)
  | ident (name : String) : Loaded dest (.ident name) (.loadVar name dest)

/-- The instructions that store an item into the variable `name`. -/
inductive Stored (name : String) : Item → List Instr → Prop where
  | absent : Stored name .absent []
  | int (value : Int) :
      Stored name (.int value) [.loadLit (.var 1) value, .storeVar name (.var 0) (.var 1)]
  | ident (source : String) :
      Stored name (.ident source) [.loadVar source (.var 1), .storeVar name (.var 0) (.var 1)]
  | temp (id : Int) : Stored name (.temp id) [.storeVar name (.var 0) (.temp id)]

/-- The register in which an operation finds an item, the instructions that bring it there, and
the next free register for variables. -/
inductive Placed (next : Int) : Item → Register → List Instr → Int → Prop where
  | temp (id : Int) : Placed next (.temp id) (.temp id) [] next
  | loaded {item : Item} {instr : Instr} :
      Loaded (.var next) item instr → Placed next item (.var next) [instr] (next + 1)

/-- The state after a declaration of `name` that leaves the slots alone. -/
def State.declare (st : State) (name : String) : State :=
  { st with declared := if name ∈ st.declared then st.declared else st.declared ++ [name] }

/-- The register instructions of a tuple instruction, and the state after it. -/
inductive Lowered (o : Options) (st : State) : Tuple.Instr → List Instr → State → Prop where
  | fold {name : String} {type literal : DataType} {value : Item} :
      name ∉ st.declared → value.literalType? = some literal →
      ((st.slots.get? name).map Slot.type).getD type = literal →
      Lowered o st (.declare name type value) []
        { st.declare name with slots := st.slots.set name ⟨literal, value.text⟩ }
  | declare {name : String} {type : DataType} {value : Item} {code : List Instr} :
      name ∈ st.declared ∨ value.literalType? = none → Stored name value code →
      Lowered o st (.declare name type value) code (st.declare name)
  | assign {name : String} {value : Item} {code : List Instr} :
      Stored name value code → Lowered o st (.assign name value) code st
  | call {name : String} {arg : Item} {instr : Instr} :
      Loaded (.param 0) arg instr →
      Lowered o st (.call name [arg]) [instr, .call (o.resolve name)] st
  | binary {op : Arith} {left right : Item} {temp next last : Int} {l r : Register}
      {leftCode rightCode : List Instr} :
      Placed 0 left l leftCode next → Placed next right r rightCode last →
      Lowered o st (.binary (.arith op) left right temp)
        (leftCode ++ rightCode ++ [.binary (.arith op) (.temp temp) l r]) st

/-- The register instructions of tuple instructions in order, and the state after them. -/
inductive LoweredAll (o : Options) : State → List Tuple.Instr → List Instr → State → Prop where
  | nil {st : State} : LoweredAll o st [] [] st
  | cons {st next last : State} {instr : Tuple.Instr} {instrs : List Tuple.Instr}
      {code rest : List Instr} :
      Lowered o st instr code next → LoweredAll o next instrs rest last →
      LoweredAll o st (instr :: instrs) (code ++ rest) last

/-! ## The functions follow the rules -/

theorem load_eq_ok {item : Item} {dest : Register} {instr : Instr} :
    load item dest = .ok instr ↔ Loaded dest item instr := by
  constructor
  · intro h
    cases item with
    | int value => cases h; exact .int value
    | ident name => cases h; exact .ident name
    | _ => cases h
  · rintro (_ | _) <;> rfl

theorem store_eq_ok {name : String} {item : Item} {code : List Instr} :
    store name item = .ok code ↔ Stored name item code := by
  constructor
  · intro h
    cases item with
    | absent => cases h; exact .absent
    | int value => cases h; exact .int value
    | ident source => cases h; exact .ident source
    | temp id => cases h; exact .temp id
    | _ => cases h
  · rintro (_ | _ | _ | _) <;> rfl

theorem lowerOperand_eq_ok {next after : Int} {item : Item} {r : Register} {code : List Instr} :
    lowerOperand next item = .ok (r, code, after) ↔ Placed next item r code after := by
  constructor
  · intro h
    rw [lowerOperand.eq_def] at h
    split at h
    · cases h; exact .temp _
    · obtain ⟨instr, hl, h⟩ := Outcome.map_eq_ok.mp h
      cases h
      exact .loaded (load_eq_ok.mp hl)
  · intro h
    cases h with
    | temp id => rfl
    | loaded hl =>
      have hl' := load_eq_ok.mpr hl
      cases hl <;> simp [lowerOperand, hl']

theorem fold_eq_ok {slots after : Table Slot} {name text : String} {declared literal : DataType} :
    fold slots name declared literal text = .ok after ↔
      ((slots.get? name).map Slot.type).getD declared = literal ∧
        after = slots.set name ⟨literal, text⟩ := by
  unfold fold
  by_cases ht : ((slots.get? name).map Slot.type).getD declared = literal
  · simp [ht, eq_comm]
  · simp [ht]

/-- A first declaration with a literal goes into the slot. -/
theorem lowerDeclaration_literal {st : State} {name : String} {type literal : DataType}
    {value : Item} (hd : name ∉ st.declared) (hl : value.literalType? = some literal) :
    lowerDeclaration st name type value =
      match fold st.slots name type literal value.text with
      | .ok slots => ({ st.declare name with slots }, .ok [])
      | .error e => (st.declare name, .error e) := by
  cases hf : fold st.slots name type literal value.text <;>
    simp [lowerDeclaration, State.declare, hd, hl, hf]

/-- Any other declaration is a store. -/
theorem lowerDeclaration_store {st : State} {name : String} {type : DataType} {value : Item}
    (h : name ∈ st.declared ∨ value.literalType? = none) :
    lowerDeclaration st name type value = (st.declare name, store name value) := by
  by_cases hd : name ∈ st.declared
  · simp [lowerDeclaration, State.declare, hd]
  · have hl := h.resolve_left hd
    simp [lowerDeclaration, State.declare, hd, hl]

theorem lowerDeclaration_eq_ok {o : Options} {st after : State} {name : String} {type : DataType}
    {value : Item} {code : List Instr} :
    lowerDeclaration st name type value = (after, .ok code) ↔
      Lowered o st (.declare name type value) code after := by
  constructor
  · intro h
    by_cases hs : name ∈ st.declared ∨ value.literalType? = none
    · rw [lowerDeclaration_store hs] at h
      obtain ⟨rfl, hc⟩ := Prod.mk.inj h
      exact .declare hs (store_eq_ok.mp hc)
    · obtain ⟨hd, hl⟩ := not_or.mp hs
      obtain ⟨literal, hl⟩ := Option.ne_none_iff_exists'.mp hl
      rw [lowerDeclaration_literal hd hl] at h
      split at h
      · next slots hf =>
        obtain ⟨ht, rfl⟩ := fold_eq_ok.mp hf
        cases h
        exact .fold hd hl ht
      · cases h
  · intro h
    cases h with
    | fold hd hl ht => rw [lowerDeclaration_literal hd hl, fold_eq_ok.mpr ⟨ht, rfl⟩]
    | declare hor hs => rw [lowerDeclaration_store hor, store_eq_ok.mpr hs]

theorem lowerCall_eq_ok {o : Options} {st : State} {name : String} {args : List Item}
    {code : List Instr} :
    lowerCall o name args = .ok code ↔ Lowered o st (.call name args) code st := by
  constructor
  · intro h
    rw [lowerCall.eq_def] at h
    split at h
    · obtain ⟨instr, hl, rfl⟩ := Outcome.map_eq_ok.mp h
      exact .call (load_eq_ok.mp hl)
    · cases h
  · rintro (_ | _ | _ | hl)
    simp [lowerCall, load_eq_ok.mpr hl]

theorem lowerBinary_eq_ok {o : Options} {st : State} {op : Operator} {left right : Item}
    {temp : Int} {code : List Instr} :
    lowerBinary op left right temp = .ok code ↔
      Lowered o st (.binary op left right temp) code st := by
  constructor
  · intro h
    cases op with
    | foreign text => cases h
    | arith op =>
      rw [lowerBinary] at h
      obtain ⟨⟨l, leftCode, next⟩, hl, h⟩ := Outcome.bind_eq_ok.mp h
      obtain ⟨⟨r, rightCode, last⟩, hr, h⟩ := Outcome.bind_eq_ok.mp h
      cases h
      exact .binary (lowerOperand_eq_ok.mp hl) (lowerOperand_eq_ok.mp hr)
  · intro h
    cases h with
    | binary hl hr =>
      simp [lowerBinary, lowerOperand_eq_ok.mpr hl, lowerOperand_eq_ok.mpr hr]

/-- Only a declaration changes the state. -/
theorem Lowered.state_eq {o : Options} {st after : State} {instr : Tuple.Instr}
    {code : List Instr} (h : Lowered o st instr code after)
    (hn : ∀ name type value, instr ≠ .declare name type value) : after = st := by
  cases h with
  | fold | declare => exact absurd rfl (hn _ _ _)
  | _ => rfl

/-- **Lowering follows the rules.** -/
theorem lowerInstr_eq_ok {o : Options} {st after : State} {instr : Tuple.Instr}
    {code : List Instr} :
    lowerInstr o st instr = (after, .ok code) ↔ Lowered o st instr code after := by
  cases instr with
  | declare name type value =>
    rw [← lowerDeclaration_eq_ok]
    simp only [lowerInstr]
    obtain ⟨next, result⟩ := lowerDeclaration st name type value
    simp [Outcome.mapError_eq_ok]
  | assign name value =>
    simp only [lowerInstr, Prod.mk.injEq, Outcome.mapError_eq_ok, store_eq_ok]
    constructor
    · rintro ⟨rfl, h⟩; exact .assign h
    · rintro (_ | _ | h); exact ⟨rfl, h⟩
  | call name args =>
    simp only [lowerInstr, Prod.mk.injEq, Outcome.mapError_eq_ok]
    constructor
    · rintro ⟨rfl, h⟩; exact lowerCall_eq_ok.mp h
    · intro h
      obtain rfl := h.state_eq (by simp)
      exact ⟨rfl, lowerCall_eq_ok.mpr h⟩
  | binary op left right temp =>
    simp only [lowerInstr, Prod.mk.injEq, Outcome.mapError_eq_ok]
    constructor
    · rintro ⟨rfl, h⟩; exact lowerBinary_eq_ok.mp h
    · intro h
      obtain rfl := h.state_eq (by simp)
      exact ⟨rfl, lowerBinary_eq_ok.mpr h⟩
  | foreign text =>
    constructor
    · intro h; cases h
    · intro h; cases h

theorem lowerAll_eq_ok {o : Options} {st last : State} {instrs : List Tuple.Instr}
    {code : List Instr} :
    lowerAll o st instrs = (last, .ok code) ↔ LoweredAll o st instrs code last := by
  constructor
  · intro h
    induction instrs generalizing st code with
    | nil => cases h; exact .nil
    | cons instr instrs ih =>
      rw [lowerAll] at h
      split at h
      · cases h
      · next next first hi =>
        obtain ⟨hlast, hr⟩ := Prod.mk.inj h
        obtain ⟨rest, hrest, rfl⟩ := Outcome.map_eq_ok.mp hr
        exact .cons (lowerInstr_eq_ok.mp hi) (ih (Prod.ext hlast hrest))
  · intro h
    induction h with
    | nil => rfl
    | cons hi _ ih => simp [lowerAll, lowerInstr_eq_ok.mpr hi, ih]

/-- Instructions that are accepted hand on the state to those behind them. -/
theorem lowerAll_append {o : Options} {st next : State} {instrs rest : List Tuple.Instr}
    {code : List Instr} (h : LoweredAll o st instrs code next) :
    lowerAll o st (instrs ++ rest) =
      ((lowerAll o next rest).1, (lowerAll o next rest).2.map (code ++ ·)) := by
  induction h with
  | nil =>
    rw [List.nil_append]
    obtain ⟨last, result⟩ := lowerAll o _ rest
    cases result <;> rfl
  | cons hi _ ih =>
    rw [List.cons_append, lowerAll, lowerInstr_eq_ok.mpr hi]
    simp only [ih]
    cases (lowerAll o _ rest).2 <;> simp

theorem LoweredAll.append {o : Options} {st next last : State} {instrs rest : List Tuple.Instr}
    {code more : List Instr} (h : LoweredAll o st instrs code next)
    (hr : LoweredAll o next rest more last) :
    LoweredAll o st (instrs ++ rest) (code ++ more) last := by
  induction h with
  | nil => exact hr
  | cons hi _ ih => rw [List.cons_append, List.append_assoc]; exact .cons hi (ih hr)

theorem LoweredAll.of_append {o : Options} {st last : State} {instrs rest : List Tuple.Instr}
    {code : List Instr} (h : LoweredAll o st (instrs ++ rest) code last) :
    ∃ first more next, LoweredAll o st instrs first next ∧ LoweredAll o next rest more last ∧
      code = first ++ more := by
  induction instrs generalizing st code with
  | nil => exact ⟨[], code, st, .nil, h, rfl⟩
  | cons instr instrs ih =>
    cases h with
    | @cons _ _ _ _ _ here _ hi hrest =>
      obtain ⟨first, more, next, hfirst, hmore, rfl⟩ := ih hrest
      exact ⟨here ++ first, more, next, .cons hi hfirst, hmore, (List.append_assoc _ _ _).symm⟩

theorem LoweredAll.single {o : Options} {st after : State} {instr : Tuple.Instr}
    {code : List Instr} (h : LoweredAll o st [instr] code after) :
    Lowered o st instr code after := by
  cases h with
  | cons hi hrest =>
    cases hrest
    rwa [List.append_nil]

/-- **A tuple program is accepted exactly by the rules.** -/
theorem ofTuple_eq_ok {o : Options} {p : Tuple.Program} {q : Program} :
    Program.ofTuple o p = .ok q ↔
      ∃ st last, State.ofVars p.vars = .ok st ∧ LoweredAll o st p.instrs q.instrs last ∧
        q.slots = last.slots := by
  rw [Program.ofTuple, build]
  cases State.ofVars p.vars with
  | error e => simp
  | ok st =>
    constructor
    · intro h
      obtain ⟨code, hc, rfl⟩ := Outcome.map_eq_ok.mp h
      exact ⟨st, _, rfl, lowerAll_eq_ok.mp (Prod.ext rfl hc), rfl⟩
    · rintro ⟨_, last, ⟨⟩, hl, hs⟩
      simp [lowerAll_eq_ok.mpr hl, ← hs]

end Lower
end Risclet
