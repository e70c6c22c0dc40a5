import Risclet.Proofs.Extension
import Risclet.Proofs.Lower.Slots
import Risclet.Proofs.Session

/-! # What a step leaves of the tables

The two stages that keep tables can be asked for one statement, operand or instruction at a time, in
any state, also in one that no program leads to.  Flattening enters a name last, when nothing can go
wrong any more: a request that is rejected leaves the variables as they are, and one that is
accepted adds at most one of them, at the end (`Tuple.answer_of_error`, `Tuple.entries_answer`).

Lowering is less tidy.  It takes a name for declared before it looks at the value, so a declaration
that is rejected leaves this mark, and the next one of the same name is not the first
(`lowerInstr_of_error`).  But the slots are not touched then.  They change with an accepted
instruction only, and only by a literal in the first declaration of a name, which has the type of
the slot that is there (`Lowered.after_eq`, `Lowered.type_folded`).

So along any run of steps, whichever of them fail, entries stay where they are, slots keep their
types, and the slots of declared names do not change.

Main statement: `steps_keep_tables`.
-/
namespace Risclet

/-! ## Flattening -/

namespace Tuple

variable {o : Options} {vars : Table DataType} {request : Request}

/-- A request for less than a program. -/
def Request.IsStep : Request → Prop
  | .program _ => False
  | _ => True

/-- The entries that a request makes if it is accepted. -/
def newEntries (vars : Table DataType) : Request → List (String × DataType)
  | .statement node => statementEntries vars node
  | _ => []

/-- **A rejected step leaves the variables as they are.** -/
theorem answer_of_error {e : Error} (hstep : request.IsStep)
    (h : (answer o vars request).2 = .error e) : (answer o vars request).1 = vars := by
  cases request with
  | program statements => exact hstep.elim
  | operand node | item node => rfl
  | statement node => exact flatten_of_error (Outcome.map_eq_error.mp h)

/-- An accepted step enters what is new behind what is there. -/
theorem entries_answer {a : Answer} (hstep : request.IsStep)
    (h : (answer o vars request).2 = .ok a) :
    (answer o vars request).1.entries = vars.entries ++ newEntries vars request := by
  cases request with
  | program statements => exact hstep.elim
  | operand node | item node => exact (List.append_nil _).symm
  | statement node =>
    obtain ⟨code, hcode, -⟩ := Outcome.map_eq_ok.mp h
    exact (flatten_eq_ok.mp (Prod.ext rfl hcode)).entries_eq

theorem entries_isPrefix_answer (hstep : request.IsStep) :
    vars.entries <+: (answer o vars request).1.entries := by
  cases h : (answer o vars request).2 with
  | error e => exact (answer_of_error hstep h).symm ▸ List.prefix_rfl
  | ok a =>
    rw [entries_answer hstep h]
    exact List.prefix_append _ _

/-- **No step changes or moves an entry**, nor does a run of steps. -/
theorem entries_isPrefix_stateAfter {requests : List Request}
    (hsteps : ∀ request ∈ requests, request.IsStep) :
    vars.entries <+: (stateAfter (answer o) vars requests).entries := by
  induction requests generalizing vars with
  | nil => exact List.prefix_rfl
  | cons request requests ih =>
    obtain ⟨hstep, hsteps⟩ := List.forall_mem_cons.mp hsteps
    exact (entries_isPrefix_answer hstep).trans (ih hsteps)

end Tuple

/-! ## Lowering -/

namespace Lower

variable {o : Options} {st next after : State} {instr : Tuple.Instr} {code : List Instr}

/-- The state with the name that an instruction declares marked as declared, and the slots as they
are. -/
def State.mark (st : State) : Tuple.Instr → State
  | .declare name _ _ => st.declare name
  | _ => st

/-- The name and the slot that an instruction sets if it is accepted: those of a first declaration
with a literal. -/
def State.folded? (st : State) : Tuple.Instr → Option (String × Slot)
  | .declare name _ value =>
    if name ∈ st.declared then none
    else value.literalType?.map fun literal => (name, ⟨literal, value.text⟩)
  | _ => none

/-- The slots after an instruction that is accepted. -/
def State.slotsAfter (st : State) (instr : Tuple.Instr) : Table Slot :=
  match st.folded? instr with
  | none => st.slots
  | some (name, slot) => st.slots.set name slot

/-- A repeated declaration, or one without a literal, sets no slot. -/
theorem State.folded?_eq_none {name : String} {type : DataType} {value : Item}
    (h : name ∈ st.declared ∨ value.literalType? = none) :
    st.folded? (.declare name type value) = none := by
  rcases h with hd | hl
  · exact if_pos hd
  · simp [folded?, hl]

@[simp] theorem State.slots_mark (st : State) (instr : Tuple.Instr) :
    (st.mark instr).slots = st.slots := by
  cases instr <;> rfl

theorem State.declared_isPrefix_mark (st : State) (instr : Tuple.Instr) :
    st.declared <+: (st.mark instr).declared := by
  cases instr with
  | declare name type value =>
    simp only [mark, State.declare]
    split
    · exact List.prefix_rfl
    · exact List.prefix_append _ _
  | _ => exact List.prefix_rfl

/-- **A rejected instruction leaves the slots as they are**, and of a declaration the mark only. -/
theorem lowerInstr_of_error {f : Failure} (h : (lowerInstr o st instr).2 = .error f) :
    (lowerInstr o st instr).1 = st.mark instr := by
  cases instr with
  | declare name type value =>
    simp only [lowerInstr, State.mark] at h ⊢
    by_cases hs : name ∈ st.declared ∨ value.literalType? = none
    · rw [lowerDeclaration_store hs]
    -- A literal of the wrong type is found out behind the mark, but before the slot is set.
    · obtain ⟨hd, hl⟩ := not_or.mp hs
      obtain ⟨literal, hl⟩ := Option.ne_none_iff_exists'.mp hl
      rw [lowerDeclaration_literal hd hl] at h ⊢
      cases hf : fold st.slots name type literal value.text with
      | error e => rfl
      | ok slots =>
        rw [hf] at h
        cases h
  | _ => rfl

/-- **An accepted instruction sets the slot of a first declaration with a literal, and no
other.** -/
theorem Lowered.after_eq (h : Lowered o st instr code after) :
    after = { st.mark instr with slots := st.slotsAfter instr } := by
  cases h with
  | fold hd hl => simp [State.mark, State.slotsAfter, State.folded?, hd, hl]
  | declare hor =>
    simp only [State.slotsAfter, State.folded?_eq_none hor]
    rfl
  | assign | call | binary => rfl

/-- A slot that is there keeps its type. -/
theorem Lowered.type_folded (h : Lowered o st instr code after) {name : String} {slot old : Slot}
    (hfolded : st.folded? instr = some (name, slot)) (hold : st.slots.get? name = some old) :
    slot.type = old.type := by
  cases h with
  | fold hd hl ht =>
    simp only [State.folded?, hd, hl, if_false, Option.map_some, Option.some.injEq,
      Prod.mk.injEq] at hfolded
    obtain ⟨rfl, rfl⟩ := hfolded
    simpa [hold] using ht.symm
  | declare hor =>
    rw [State.folded?_eq_none hor] at hfolded
    cases hfolded
  | assign | call | binary => cases hfolded

/-! ### Runs of steps -/

/-- What steps keep of a state: names once declared and the order of the slots, the types of slots,
and the slots of declared names. -/
structure State.Kept (st after : State) : Prop where
  declared : st.declared <+: after.declared
  keys : st.slots.keys <+: after.slots.keys
  type : ∀ name type, (st.slots.get? name).map Slot.type = some type →
    (after.slots.get? name).map Slot.type = some type
  slot : ∀ name ∈ st.declared, after.slots.get? name = st.slots.get? name

theorem State.Kept.refl (st : State) : st.Kept st :=
  ⟨List.prefix_rfl, List.prefix_rfl, fun _ _ h => h, fun _ _ => rfl⟩

theorem State.Kept.trans (h : st.Kept next) (h' : next.Kept after) : st.Kept after where
  declared := h.declared.trans h'.declared
  keys := h.keys.trans h'.keys
  type name type ht := h'.type name type (h.type name type ht)
  slot name hname := (h'.slot name (h.declared.subset hname)).trans (h.slot name hname)

theorem State.keys_slotsAfter (st : State) (instr : Tuple.Instr) :
    st.slots.keys <+: (st.slotsAfter instr).keys := by
  unfold State.slotsAfter
  split
  · exact List.prefix_rfl
  · rw [Table.keys_set]
    split
    · exact List.prefix_rfl
    · exact List.prefix_append _ _

theorem kept_lowerInstr (o : Options) (st : State) (instr : Tuple.Instr) :
    st.Kept (lowerInstr o st instr).1 := by
  cases h : (lowerInstr o st instr).2 with
  | error f =>
    rw [lowerInstr_of_error h]
    exact ⟨st.declared_isPrefix_mark instr, by simp, by simp, by simp⟩
  | ok code =>
    have hl : Lowered o st instr code (lowerInstr o st instr).1 :=
      lowerInstr_eq_ok.mp (Prod.ext rfl h)
    refine ⟨?_, ?_, fun _ _ ht => hl.slot_type ht, fun _ hd => hl.slot_of_declared hd⟩
    · rw [hl.after_eq]
      exact st.declared_isPrefix_mark instr
    · rw [hl.after_eq]
      exact st.keys_slotsAfter instr

/-- **Steps keep declared slots and all types**, whichever of them fail. -/
theorem kept_stateAfter (o : Options) (st : State) (instrs : List Tuple.Instr) :
    st.Kept (stateAfter (answer o) st (instrs.map .instr)) := by
  induction instrs generalizing st with
  | nil => exact .refl st
  | cons instr instrs ih => exact (kept_lowerInstr o st instr).trans (ih _)

end Lower

/-- **A failing step leaves the tables intact.**  Of flattening: a statement, operand or item that
is rejected changes no variable.  One that is accepted adds the name of a declaration at the end, if
it is not there yet, and nothing else; so no run of such requests changes or moves an entry.

Of lowering: an instruction that is rejected changes no slot, and if it is a declaration, its name
counts as declared.  One that is accepted sets at most the slot of the name that it declares, and
this only if the name was not declared and the value is a literal; a slot that is there keeps its
type.  So along any run of instructions, whichever of them fail, slots keep their places and types,
and those of declared names do not change. -/
theorem steps_keep_tables (o : Options) :
    (∀ vars request e, request.IsStep → (Tuple.answer o vars request).2 = .error e →
      (Tuple.answer o vars request).1 = vars) ∧
    (∀ vars request a, request.IsStep → (Tuple.answer o vars request).2 = .ok a →
      (Tuple.answer o vars request).1.entries = vars.entries ++ Tuple.newEntries vars request) ∧
    (∀ vars requests, (∀ request ∈ requests, request.IsStep) →
      vars.entries <+: (stateAfter (Tuple.answer o) vars requests).entries) ∧
    (∀ st instr f, (Lower.answer o st (.instr instr)).2 = .error f →
      (Lower.answer o st (.instr instr)).1 = st.mark instr) ∧
    (∀ st instr a, (Lower.answer o st (.instr instr)).2 = .ok a →
      (Lower.answer o st (.instr instr)).1 =
          { st.mark instr with slots := st.slotsAfter instr } ∧
        ∀ name slot old, st.folded? instr = some (name, slot) →
          st.slots.get? name = some old → slot.type = old.type) ∧
    ∀ (st : Lower.State) (instrs : List Tuple.Instr),
      st.Kept (stateAfter (Lower.answer o) st (instrs.map .instr)) := by
  refine ⟨fun vars request e hstep h => Tuple.answer_of_error hstep h,
    fun vars request a hstep h => Tuple.entries_answer hstep h,
    fun vars requests hsteps => Tuple.entries_isPrefix_stateAfter hsteps,
    fun st instr f h => ?_, fun st instr a h => ?_, Lower.kept_stateAfter o⟩
  · exact Lower.lowerInstr_of_error (Outcome.map_eq_error.mp h)
  · obtain ⟨code, hcode, -⟩ := Outcome.map_eq_ok.mp h
    have hl : Lower.Lowered o st instr code (Lower.lowerInstr o st instr).1 :=
      Lower.lowerInstr_eq_ok.mp (Prod.ext rfl hcode)
    exact ⟨hl.after_eq, fun name slot old => hl.type_folded⟩

/-- One variable, a string. -/
def label : Table DataType := ⟨[("s", .string)]⟩

/-- The state in which lowering begins with it. -/
def labelSlot : Lower.State := { slots := ⟨[("s", ⟨.string, "\"\""⟩)]⟩ }

/-- An integer is no first value of a string.  Flattening rejects it and forgets it, and goes on
with the next declaration.  Lowering rejects it too, but has counted it: the string that would have
been accepted in its place is rejected after it, and the slot is as it was. -/
theorem steps_keep_tables_misfit :
    (∃ e, (Tuple.answer {} label
        (.statement (.decl "s" "Int32" (.int 3 Pos.unknown) Pos.unknown))).2 = .error e) ∧
      (Tuple.answer {} label
        (.statement (.decl "s" "Int32" (.int 3 Pos.unknown) Pos.unknown))).1 = label ∧
      (Tuple.answer {} label
        (.statement (.decl "n" "Int32" (.int 3 Pos.unknown) Pos.unknown))).1.entries =
          [("s", .string), ("n", .int32)] ∧
      (∃ f, (Lower.answer {} labelSlot (.instr (.declare "s" .int32 (.int 3)))).2 = .error f) ∧
      (Lower.answer {} labelSlot (.instr (.declare "s" .int32 (.int 3)))).1 =
        { labelSlot with declared := ["s"] } ∧
      (Lower.answer {} labelSlot (.instr (.declare "s" .string (.str "hi")))).1.slots.get? "s" =
        some ⟨.string, "\"hi\""⟩ ∧
      (stateAfter (Lower.answer {}) labelSlot
        ([.declare "s" .int32 (.int 3), .declare "s" .string (.str "hi")].map .instr)).slots.get?
          "s" = some ⟨.string, "\"\""⟩ := by
  obtain ⟨hrejected, haccepted, -, hfailed, hlowered, hkept⟩ := steps_keep_tables {}
  have hmark : (Lower.answer {} labelSlot (.instr (.declare "s" .int32 (.int 3)))).1 =
      { labelSlot with declared := ["s"] } :=
    hfailed labelSlot _ _ rfl
  refine ⟨⟨_, rfl⟩, hrejected label _ _ trivial rfl, haccepted label _ _ trivial rfl, ⟨_, rfl⟩,
    hmark, ?_, ?_⟩
  · rw [(hlowered labelSlot _ _ rfl).1]
    rfl
  · rw [List.map_cons, stateAfter_cons, hmark]
    exact (hkept _ [.declare "s" .string (.str "hi")]).slot "s" (by simp)

end Risclet
