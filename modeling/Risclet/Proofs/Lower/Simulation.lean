import Risclet.Proofs.Lower.Machine
import Risclet.Proofs.Lower.Slots
import Risclet.Proofs.Tuple.Discipline

/-! # Lowering simulates tuple instructions

The register code of a tuple instruction does to registers and memory what the instruction does to
results and variables.  One difference has to be bridged: the literal of a variable's first
declaration is in memory from the beginning, while in the tuple program the variable is zero until
the declaration is reached.  So the two memories agree on the names whose first declaration is past
or never comes (`Settled`), and on the others memory holds what the slots say in the end
(`Simulates`).  That is enough, because a name is not used before its first declaration, and because
a slot does not change after it.

Calls may leave anything in the registers, and results live in registers; but a call forgets the
results in the tuple program too.
-/
namespace Risclet
namespace Lower

/-- A name with an integer slot. -/
def IsWord (slots : Table Slot) (name : String) : Prop :=
  ∃ text, slots.get? name = some ⟨.int32, text⟩

/-- A tuple machine and a register machine that have come to the same point; `known` are the names
on which the memories agree, and `final` are the slots after the whole program. -/
structure Simulates (final : Table Slot) (known : String → Prop) (s : Tuple.Machine)
    (t : Machine) : Prop where
  events : t.events = s.events
  temps : ∀ id v, s.temps id = some v → t.regs (.temp id) = v
  declared : ∀ name, known name → IsWord final name → t.memory name = s.memory name
  undeclared : ∀ name text, ¬ known name → final.get? name = some ⟨.int32, text⟩ →
    s.memory name = 0 ∧ word? text = some (t.memory name)

section Instructions
variable {final : Table Slot} {known known' : String → Prop} {s : Tuple.Machine} {t : Machine}
  (env : Environment) {item : Item} {v : Word}

/-! ## Loads and stores -/

/-- The register machine has the results that the tuple machine has, and the variables that an item
reads. -/
structure Serves (s : Tuple.Machine) (t : Machine) (item : Item) : Prop where
  temps : ∀ id v, s.temps id = some v → t.regs (.temp id) = v
  names : ∀ name ∈ item.names, t.memory name = s.memory name

theorem Serves.of_world {t' : Machine} (h : Serves s t item) (hw : t'.toWorld = t.toWorld)
    (hregs : ∀ id, t'.regs (.temp id) = t.regs (.temp id)) : Serves s t' item := by
  refine ⟨fun id v hid => (hregs id).trans (h.temps id v hid), fun name hn => ?_⟩
  rw [hw]
  exact h.names name hn

/-- An item whose names are known integer variables. -/
def Readable (final : Table Slot) (known : String → Prop) (item : Item) : Prop :=
  ∀ name ∈ item.names, known name ∧ IsWord final name

theorem Simulates.serves (hsim : Simulates final known s t) (hr : Readable final known item) :
    Serves s t item :=
  ⟨hsim.temps, fun name hn => hsim.declared name (hr name hn).1 (hr name hn).2⟩

theorem Loaded.step_eq {dest : Register} {instr : Instr} (h : Loaded dest item instr)
    (hs : Serves s t item) (hv : s.value? item = some v) :
    t.step env instr = some (t.setReg dest v) := by
  cases h with
  | int value => cases hv; rfl
  | ident name =>
    cases hv
    rw [← hs.names name List.mem_cons_self]
    rfl

/-- A value that is loaded into `v1` and stored from there leaves the results alone; the address
goes to `v0`. -/
theorem run_load_store {load : Instr} (name : String)
    (hload : t.step env load = some (t.setReg (.var 1) v)) :
    ∃ regs, t.run env [load, .storeVar name (.var 0) (.var 1)] =
        some ⟨t.toWorld.store name v, regs⟩ ∧ ∀ id, regs (.temp id) = t.regs (.temp id) := by
  refine ⟨(t.regs.set (.var 1) v).set (.var 0) ((env.address name).setWidth 32), ?_, ?_⟩
  · rw [Machine.run_cons, hload]
    simp [Machine.step, Machine.setReg]
  · intro id
    rw [Registers.set_other _ _ (by simp [Register.temp, Register.var]),
      Registers.set_other _ _ (by simp [Register.temp, Register.var])]

/-- Strings are not stored. -/
theorem Stored.ne_string {name : String} {code : List Instr} (h : Stored name item code) :
    item.literalType? ≠ some .string := by
  cases h <;> simp [Item.literalType?]

/-- A store puts the value into the variable and leaves the results alone. -/
theorem Stored.run_eq {name : String} {code : List Instr} (h : Stored name item code)
    (hs : Serves s t item) (hv : s.value? item = some v) :
    ∃ regs, t.run env code = some ⟨t.toWorld.store name v, regs⟩ ∧
      ∀ id, regs (.temp id) = t.regs (.temp id) := by
  cases h with
  | absent => cases hv
  | int value => exact run_load_store env name ((Loaded.int value).step_eq env hs hv)
  | ident source => exact run_load_store env name ((Loaded.ident source).step_eq env hs hv)
  | temp id =>
    -- The value is in the register of the result already.
    refine ⟨t.regs.set (.var 0) ((env.address name).setWidth 32), ?_, fun id => ?_⟩
    · simp [Machine.step, hs.temps id v hv]
    · exact Registers.set_other _ _ (by simp [Register.temp, Register.var])

/-- An assignment or a declaration that is stored does nothing on either side if it has no value,
and otherwise stores the same value on both. -/
theorem Stored.run_step {o : Options} {s' : Tuple.Machine} {name : String} {code : List Instr}
    {instr : Tuple.Instr} (h : Stored name item code)
    (hinstr : instr = .assign name item ∨ ∃ type, instr = .declare name type item)
    (hs : Serves s t item) (hstep : s.step o instr = some s') :
    (item = .absent ∧ s' = s ∧ code = []) ∨
      item ≠ .absent ∧ ∃ v regs, s' = { s with toWorld := s.toWorld.store name v } ∧
        t.run env code = some ⟨t.toWorld.store name v, regs⟩ ∧
        ∀ id, regs (.temp id) = t.regs (.temp id) := by
  by_cases ha : item = .absent
  · subst ha
    cases h
    obtain rfl : s = s' := by rcases hinstr with rfl | ⟨type, rfl⟩ <;> exact Option.some.inj hstep
    exact .inl ⟨rfl, rfl, rfl⟩
  · have hstore : s.store? name item = some s' := by
      rcases hinstr with rfl | ⟨type, rfl⟩
      · rwa [s.step_assign ha] at hstep
      · rwa [s.step_declare ha h.ne_string] at hstep
    obtain ⟨v, hv, rfl⟩ := Option.map_eq_some_iff.mp hstore
    obtain ⟨regs, hrun, hregs⟩ := h.run_eq env hs hv
    exact .inr ⟨ha, v, regs, rfl, hrun, hregs⟩

/-- A call gets the value of its argument. -/
theorem Loaded.run_call {load : Instr} (h : Loaded (.param 0) item load) (hs : Serves s t item)
    (hv : s.value? item = some v) (symbol : String) :
    t.run env [load, .call symbol] =
      some ⟨t.toWorld.call symbol v, env.after t.events.length⟩ := by
  rw [Machine.run_cons, h.step_eq env hs hv]
  simp [Machine.step, Machine.setReg]

/-- Placing an item changes at most the next register for variables. -/
theorem Placed.run_eq {next after : Int} {r : Register} {code : List Instr}
    (h : Placed next item r code after) (hs : Serves s t item) (hv : s.value? item = some v) :
    ∃ t', t.run env code = some t' ∧ t'.toWorld = t.toWorld ∧ t'.regs r = v ∧
      ∀ key, key ≠ .var next → t'.regs key = t.regs key := by
  cases h with
  | temp id => exact ⟨t, rfl, rfl, hs.temps id v hv, fun _ _ => rfl⟩
  | loaded hl =>
    refine ⟨t.setReg (.var next) v, ?_, rfl, Registers.set_self _ _ _, fun key hk => ?_⟩
    · simp [hl.step_eq env hs hv]
    · exact Registers.set_other _ _ hk

/-- The register of one operand is not needed for the next. -/
theorem Placed.ne_next {next after : Int} {r : Register} {code : List Instr}
    (h : Placed next item r code after) : r ≠ .var after := by
  cases h with
  | temp id => simp [Register.temp, Register.var]
  | loaded _ =>
    simp only [Register.var, ne_eq, Register.mk.injEq, true_and]
    omega

/-- An operation leaves its result where the other results are, and all else that matters as it
was. -/
theorem Placed.run_binary {left right : Item} {a b : Word} {next last : Int} {l r : Register}
    {leftCode rightCode : List Instr} (hl : Placed 0 left l leftCode next)
    (hr : Placed next right r rightCode last) (hsl : Serves s t left) (hsr : Serves s t right)
    (ha : s.value? left = some a) (hb : s.value? right = some b) (op : Arith) (temp : Int) :
    ∃ t', t.run env (leftCode ++ rightCode ++ [.binary (.arith op) (.temp temp) l r]) = some t' ∧
      t'.toWorld = t.toWorld ∧ ∀ id v, (s.setTemp temp (op.eval a b)).temps id = some v →
        t'.regs (.temp id) = v := by
  have hvar : ∀ id n, Register.temp id ≠ .var n := by simp [Register.temp, Register.var]
  -- The left operand stays in its register while the right one is placed.
  obtain ⟨t₁, hrun₁, hw₁, hla, hkeep₁⟩ := hl.run_eq env hsl ha
  have hsr₁ := hsr.of_world hw₁ fun id => hkeep₁ _ (hvar id 0)
  obtain ⟨t₂, hrun₂, hw₂, hrb, hkeep₂⟩ := hr.run_eq env hsr₁ hb
  refine ⟨t₂.setReg (.temp temp) (op.eval a b), ?_, hw₂.trans hw₁, fun id v h => ?_⟩
  · rw [Machine.run_append, Machine.run_append, hrun₁]
    simp [hrun₂, Machine.step, hkeep₂ _ hl.ne_next, hla, hrb]
  · by_cases hid : id = temp
    · subst hid
      simpa [Tuple.Machine.setTemp, Machine.setReg] using h
    · have hne : Register.temp id ≠ .temp temp := by simpa [Register.temp] using hid
      refine (Registers.set_other _ _ hne).trans ((hkeep₂ _ (hvar id next)).trans ?_)
      exact hsr₁.temps id v (by simpa [Tuple.Machine.setTemp, hid] using h)

/-! ## Steps of the relation -/

/-- At most the variable `name` changes on either side, and after that it has the same value on
both; it may become known in this way. -/
theorem Simulates.update {s' : Tuple.Machine} {t' : Machine} {name : String}
    (hsim : Simulates final known s t) (hknown : ∀ key, known' key ↔ known key ∨ key = name)
    (hsource : s'.events = s.events ∧ s'.temps = s.temps ∧
      ∀ key, key ≠ name → s'.memory key = s.memory key)
    (htarget : t'.events = t.events ∧ (∀ id, t'.regs (.temp id) = t.regs (.temp id)) ∧
      ∀ key, key ≠ name → t'.memory key = t.memory key)
    (hname : IsWord final name → t'.memory name = s'.memory name) :
    Simulates final known' s' t' := by
  obtain ⟨hse, hst, hsm⟩ := hsource
  obtain ⟨hte, htr, htm⟩ := htarget
  refine ⟨?_, ?_, ?_, ?_⟩
  · rw [hte, hse]; exact hsim.events
  · intro id v h
    rw [hst] at h
    exact (htr id).trans (hsim.temps id v h)
  · intro key hk hw
    by_cases he : key = name
    · subst he; exact hname hw
    · rw [hsm key he, htm key he]
      exact hsim.declared key (((hknown key).mp hk).resolve_right he) hw
  · intro key text hk hf
    have hn : ¬ known key ∧ key ≠ name := by simpa [hknown] using hk
    rw [hsm key hn.2, htm key hn.2]
    exact hsim.undeclared key text hn.1 hf

/-- The same value is stored on both sides. -/
theorem Simulates.store {name : String} {regs : Registers} (hsim : Simulates final known s t)
    (hname : known name) (hregs : ∀ id, regs (.temp id) = t.regs (.temp id)) (v : Word) :
    Simulates final known { s with toWorld := s.toWorld.store name v }
      ⟨t.toWorld.store name v, regs⟩ := by
  have hknown : ∀ key, known key ↔ known key ∨ key = name :=
    fun key => ⟨.inl, fun h => h.elim id fun he => he ▸ hname⟩
  exact hsim.update hknown ⟨rfl, rfl, fun _ he => Memory.set_other _ _ he⟩
    ⟨rfl, hregs, fun _ he => Memory.set_other _ _ he⟩ fun _ => by simp [World.store]

/-- A literal that becomes the initial value of its slot has been in memory from the beginning. -/
theorem Simulates.fold {o : Options} {s' : Tuple.Machine} {name : String}
    {type literal : DataType} {value : Item} (hsim : Simulates final known s t)
    (hknown : ∀ key, known' key ↔ known key ∨ key = name) (hname : ¬ known name)
    (hl : value.literalType? = some literal)
    (hslot : final.get? name = some ⟨literal, value.text⟩)
    (hstep : s.step o (.declare name type value) = some s') : Simulates final known' s' t := by
  cases value with
  | int v =>
    cases hl
    cases hstep
    have hword := (hsim.undeclared name _ hname hslot).2
    rw [Item.text, word?_toString] at hword
    refine hsim.update hknown ⟨rfl, rfl, fun _ he => Memory.set_other _ _ he⟩
      ⟨rfl, fun _ => rfl, fun _ _ => rfl⟩ fun _ => ?_
    simpa [World.store] using (Option.some.inj hword).symm
  | str text =>
    cases hl
    cases hstep
    refine hsim.update hknown ⟨rfl, rfl, fun _ _ => rfl⟩ ⟨rfl, fun _ => rfl, fun _ _ => rfl⟩ ?_
    rintro ⟨text, hw⟩
    rw [hslot] at hw
    cases hw
  | _ => cases hl

/-- A variable whose slot has no literal begins with zero on both sides. -/
theorem Simulates.declare {name : String} (hsim : Simulates final known s t)
    (hknown : ∀ key, known' key ↔ known key ∨ key = name)
    (hslot : ¬ known name → ∀ text, final.get? name = some ⟨.int32, text⟩ → text = "0") :
    Simulates final known' s t := by
  refine hsim.update hknown ⟨rfl, rfl, fun _ _ => rfl⟩ ⟨rfl, fun _ => rfl, fun _ _ => rfl⟩ ?_
  rintro ⟨text, hw⟩
  by_cases hk : known name
  · exact hsim.declared name hk ⟨text, hw⟩
  · obtain ⟨hzero, hword⟩ := hsim.undeclared name text hk hw
    rw [hslot hk text hw, word?_zero] at hword
    rw [hzero]
    exact (Option.some.inj hword).symm

/-- **A store keeps the machines together**, if its name is known. -/
theorem Stored.simulates {o : Options} {s' : Tuple.Machine} {name : String} {code : List Instr}
    {instr : Tuple.Instr} (h : Stored name item code)
    (hinstr : instr = .assign name item ∨ ∃ type, instr = .declare name type item)
    (hsim : Simulates final known s t) (hr : Readable final known item)
    (hname : item ≠ .absent → known name) (hstep : s.step o instr = some s') :
    ∃ t', t.run env code = some t' ∧ Simulates final known s' t' := by
  rcases h.run_step env hinstr (hsim.serves hr) hstep with
    ⟨-, rfl, rfl⟩ | ⟨ha, v, regs, rfl, hrun, hregs⟩
  · exact ⟨t, rfl, hsim⟩
  · exact ⟨_, hrun, hsim.store (hname ha) hregs v⟩

end Instructions

/-! ## One tuple instruction -/

/-- A name whose first declaration does not come any more: it is past, or `rest` has none. -/
def Settled (declared : List String) (rest : List Tuple.Instr) (name : String) : Prop :=
  name ∈ declared ∨ ∀ later ∈ rest, ¬ later.Declares name

section Step
variable {o : Options} {st after : State} {instr : Tuple.Instr} {rest : List Tuple.Instr}
  {code : List Instr} {final : Table Slot} {s s' : Tuple.Machine} {t : Machine}

/-- An instruction settles the name that it declares. -/
theorem Lowered.settled (h : Lowered o st instr code after) {key : String} :
    Settled after.declared rest key ↔
      Settled st.declared (instr :: rest) key ∨ instr.Declares key := by
  have hd : key ∈ after.declared ↔ key ∈ st.declared ∨ instr.Declares key := h.mem_declared
  rw [Settled, Settled, List.forall_mem_cons, hd]
  by_cases hi : instr.Declares key <;> simp [hi]

/-- An instruction that declares nothing settles nothing. -/
theorem Lowered.settled_eq (h : Lowered o st instr code after)
    (hd : ∀ key, ¬ instr.Declares key) :
    Settled st.declared (instr :: rest) = Settled after.declared rest := by
  funext key
  simp [h.settled, hd]

/-- **One instruction keeps the machines together**, if the names that it uses are settled by it.
The slots of declared names are final, and those of the others are the initial ones. -/
theorem Lowered.simulates (h : Lowered o st instr code after) (env : Environment)
    (hsim : Simulates final (Settled st.declared (instr :: rest)) s t)
    (hstep : s.step o instr = some s')
    (huses : ∀ name ∈ instr.uses, Settled after.declared rest name)
    (hwords : ∀ name ∈ instr.reads, IsWord final name)
    (hfinal : ∀ name ∈ after.declared, final.get? name = after.slots.get? name)
    (hfresh : Fresh st) :
    ∃ t', t.run env code = some t' ∧ Simulates final (Settled after.declared rest) s' t' := by
  have hreads : ∀ name ∈ instr.reads, Settled after.declared rest name ∧ IsWord final name :=
    fun name hn => ⟨huses name (Tuple.Instr.mem_uses.mpr (.inl hn)), hwords name hn⟩
  have hl := h
  cases h with
  | @fold name type literal value hd hlit htype =>
    have hslot : final.get? name = some ⟨literal, value.text⟩ := by
      rw [hfinal name (by simp)]
      simp [Table.get?_set]
    have hname : ¬ Settled st.declared (.declare name type value :: rest) name := by
      simp [Settled, hd, Tuple.Instr.declares_declare]
    refine ⟨t, rfl, hsim.fold (fun key => ?_) hname hlit hslot hstep⟩
    rw [hl.settled, Tuple.Instr.declares_declare]
  | @declare name type value code hor hs =>
    -- Whether or not this is the first declaration, memory is right before anything is stored.
    have hzero : ¬ Settled st.declared (.declare name type value :: rest) name →
        ∀ text, final.get? name = some ⟨.int32, text⟩ → text = "0" := by
      intro hk text hw
      rw [hfinal name (by simp)] at hw
      exact congrArg Slot.initial (hfresh name _ (fun hd => hk (.inl hd)) hw)
    have hsim' : Simulates final (Settled (st.declare name).declared rest) s t :=
      hsim.declare (fun key => by rw [hl.settled, Tuple.Instr.declares_declare]) hzero
    exact hs.simulates env (.inr ⟨type, rfl⟩) hsim' hreads (fun _ => .inl (by simp)) hstep
  | @assign name value code hs =>
    rw [hl.settled_eq (by simp [Tuple.Instr.Declares])] at hsim
    exact hs.simulates env (.inl rfl) hsim hreads
      (fun ha => huses name (Tuple.Instr.mem_uses.mpr (.inr ⟨value, ha, rfl⟩))) hstep
  | @call name arg load hload =>
    rw [hl.settled_eq (by simp [Tuple.Instr.Declares])] at hsim
    obtain ⟨v, hv, rfl⟩ := Option.map_eq_some_iff.mp hstep
    have hread : Readable final (Settled st.declared rest) arg :=
      fun n hn => hreads n (by simpa [Tuple.Instr.reads] using hn)
    -- The call leaves anything in the registers, but no result is known after it.
    refine ⟨_, hload.run_call env (hsim.serves hread) hv (o.resolve name), ?_⟩
    refine ⟨?_, by simp, hsim.declared, hsim.undeclared⟩
    simp [World.call, hsim.events]
  | @binary op left right temp next last l r leftCode rightCode hl' hr =>
    rw [hl.settled_eq (by simp [Tuple.Instr.Declares])] at hsim
    obtain ⟨a, ha, hstep⟩ := Option.bind_eq_some_iff.mp hstep
    obtain ⟨b, hb, hstep⟩ := Option.bind_eq_some_iff.mp hstep
    cases hstep
    have hreadl : Readable final (Settled st.declared rest) left :=
      fun n hn => hreads n (List.mem_append_left _ hn)
    have hreadr : Readable final (Settled st.declared rest) right :=
      fun n hn => hreads n (List.mem_append_right _ hn)
    obtain ⟨t', hrun, hw, htemps⟩ :=
      hl'.run_binary env hr (hsim.serves hreadl) (hsim.serves hreadr) ha hb op temp
    refine ⟨t', hrun, ?_, htemps, ?_, ?_⟩
    · rw [hw]; exact hsim.events
    · rw [hw]; exact hsim.declared
    · rw [hw]; exact hsim.undeclared

/-! ## Runs -/

/-- **A run keeps the machines together.** -/
theorem LoweredAll.simulates {last : State} {instrs : List Tuple.Instr}
    (h : LoweredAll o st instrs code last) (env : Environment)
    (hsim : Simulates last.slots (Settled st.declared instrs) s t)
    (hrun : s.run o instrs = some s') (htimely : Tuple.Timely (· ∈ st.declared) instrs)
    (hwords : ∀ instr ∈ instrs, ∀ name ∈ instr.reads, IsWord last.slots name)
    (hfresh : Fresh st) :
    ∃ t', t.run env code = some t' ∧ Simulates last.slots (Settled last.declared []) s' t' := by
  induction h generalizing s t with
  | nil => cases hrun; exact ⟨t, rfl, hsim⟩
  | @cons st next last instr instrs code rest hi hrest ih =>
    obtain ⟨mid, hstep, hrun⟩ := Option.bind_eq_some_iff.mp hrun
    obtain ⟨hfirst, hwords⟩ := List.forall_mem_cons.mp hwords
    have huses : ∀ name ∈ instr.uses, Settled next.declared instrs name := by
      intro name hu
      rcases htimely.head hu with hk | hd | hnever
      · exact .inl (hi.declared_mono hk)
      · exact .inl (hi.mem_declared.mpr (.inr hd))
      · exact .inr hnever
    have hknown : (fun key => key ∈ st.declared ∨ instr.Declares key) = (· ∈ next.declared) :=
      funext fun _ => propext hi.mem_declared.symm
    have htimely := hknown ▸ htimely.tail
    obtain ⟨t₁, hrun₁, hsim₁⟩ := hi.simulates env hsim hstep huses hfirst
      (fun _ hk => hrest.slot_of_declared hk) hfresh
    obtain ⟨t₂, hrun₂, hsim₂⟩ := ih hsim₁ hrun htimely hwords (hi.fresh hfresh)
    exact ⟨t₂, by rw [Machine.run_append, hrun₁]; exact hrun₂, hsim₂⟩

/-- **Lowering preserves the meaning of timely tuple programs.**  From memory as the slots give it,
whatever the registers hold, register code makes the calls of the tuple program and ends with the
same integer variables. -/
theorem ofTuple_simulates_of_timely {p : Tuple.Program} {q : Program}
    (h : Program.ofTuple o p = .ok q) (htimely : Tuple.Timely (fun _ => False) p.instrs)
    (hwords : ∀ instr ∈ p.instrs, ∀ name ∈ instr.reads, IsWord q.slots name)
    (hrun : Tuple.Machine.run o ⟨World.start, fun _ => none⟩ p.instrs = some s')
    (env : Environment) (regs : Registers) {m : Memory} (hm : Initialises q.slots m) :
    ∃ t, Machine.run env ⟨⟨m, []⟩, regs⟩ q.instrs = some t ∧ t.events = s'.events ∧
      ∀ name, IsWord q.slots name → t.memory name = s'.memory name := by
  obtain ⟨st, last, hst, hl, hslots⟩ := ofTuple_eq_ok.mp h
  have hfresh := fresh_ofVars hst
  obtain ⟨-, rfl⟩ := ofVars_eq_ok.mp hst
  rw [hslots] at hwords hm ⊢
  have hnone : (fun _ => False) = (· ∈ ([] : List String)) := by simp
  rw [hnone] at htimely
  have hsim : Simulates last.slots (Settled [] p.instrs) ⟨World.start, fun _ => none⟩
      ⟨⟨m, []⟩, regs⟩ := by
    refine ⟨rfl, by simp, ?_, fun name text _ hf => ⟨rfl, hm name text hf⟩⟩
    -- A variable that is never declared has the initial slot, so it begins with zero.
    rintro name hname ⟨text, hw⟩
    have hnever : ∀ later ∈ p.instrs, ¬ later.Declares name := hname.resolve_left (by simp)
    have hd : name ∉ last.declared := by
      intro hmem
      rcases hl.mem_declared.mp hmem with hstart | ⟨instr, hi, hdecl⟩
      · cases hstart
      · exact hnever instr hi hdecl
    have hword := hm name text hw
    rw [show text = "0" from congrArg Slot.initial (hl.fresh hfresh name _ hd hw),
      word?_zero] at hword
    exact (Option.some.inj hword).symm
  obtain ⟨t, ht, hsim'⟩ := hl.simulates env hsim hrun htimely hwords hfresh
  exact ⟨t, ht, hsim'.events, fun name hw => hsim'.declared name (.inr (by simp)) hw⟩

/-- **Lowering preserves the meaning of scoped tuple programs.** -/
theorem ofTuple_simulates {p : Tuple.Program} {q : Program} (h : Program.ofTuple o p = .ok q)
    (hscope : Tuple.Scoped (IsWord q.slots) (fun _ => False) p.instrs)
    (hrun : Tuple.Machine.run o ⟨World.start, fun _ => none⟩ p.instrs = some s')
    (env : Environment) (regs : Registers) {m : Memory} (hm : Initialises q.slots m) :
    ∃ t, Machine.run env ⟨⟨m, []⟩, regs⟩ q.instrs = some t ∧ t.events = s'.events ∧
      ∀ name, IsWord q.slots name → t.memory name = s'.memory name :=
  ofTuple_simulates_of_timely h hscope.timely hscope.words hrun env regs hm

end Step

end Lower
end Risclet
