import Risclet.Proofs.Lower.Rules
import Risclet.Proofs.Tuple.Declarations

/-! # What lowering does to the slots

At the beginning every variable has a slot with the initial value of its type.  A slot changes once
at most, when its variable is declared for the first time; from then on it stays as it is
(`Lowered.slot_of_declared`), and until then it is as it was in the beginning (`Fresh`).
-/
namespace Risclet
namespace Lower

/-- The slot of a variable that has no initial value of its own. -/
def Slot.default : DataType → Slot
  | .int32 => ⟨.int32, "0"⟩
  | .string => ⟨.string, "\"\""⟩
  | .foreign text => ⟨.foreign text, ""⟩

@[simp] theorem Slot.default_type (t : DataType) : (Slot.default t).type = t := by
  cases t <;> rfl

theorem defaultSlot_eq_ok {t : DataType} {slot : Slot} :
    (defaultValue t).map (Slot.mk t) = .ok slot ↔ t.HasStorage ∧ slot = Slot.default t := by
  cases t <;> simp [defaultValue, DataType.HasStorage, Slot.default, eq_comm]

/-- **The first state.**  Lowering can begin if every variable has a type with storage. -/
theorem ofVars_eq_ok {vars : Table DataType} {st : State} :
    State.ofVars vars = .ok st ↔
      (∀ e ∈ vars.entries, e.2.HasStorage) ∧ st = { slots := vars.mapValues Slot.default } := by
  have hg : ∀ t slot, (defaultValue t).map (Slot.mk t) = .ok slot → slot = Slot.default t :=
    fun _ _ h => (defaultSlot_eq_ok.mp h).2
  rw [State.ofVars, Outcome.map_eq_ok]
  constructor
  · rintro ⟨slots, hm, rfl⟩
    obtain ⟨hall, rfl⟩ := (Table.mapM_eq_ok hg).mp hm
    exact ⟨fun e he => (defaultSlot_eq_ok.mp (hall e he)).1, rfl⟩
  · rintro ⟨hall, rfl⟩
    refine ⟨_, (Table.mapM_eq_ok hg).mpr ⟨fun e he => ?_, rfl⟩, rfl⟩
    exact defaultSlot_eq_ok.mpr ⟨hall e he, rfl⟩

/-! ## Declared names -/

@[simp] theorem State.mem_declared_declare {st : State} {name key : String} :
    key ∈ (st.declare name).declared ↔ key ∈ st.declared ∨ key = name := by
  unfold State.declare
  by_cases h : name ∈ st.declared
  · simp only [if_pos h]
    exact ⟨.inl, fun hk => hk.elim id (fun hk => hk ▸ h)⟩
  · simp [h]

section Steps
variable {o : Options} {st after : State} {instr : Tuple.Instr} {code : List Instr}

/-- The names declared after an instruction. -/
theorem Lowered.mem_declared (h : Lowered o st instr code after) {key : String} :
    key ∈ after.declared ↔ key ∈ st.declared ∨ ∃ type value, instr = .declare key type value := by
  cases h with
  | fold | declare =>
    refine State.mem_declared_declare.trans (or_congr_right ?_)
    constructor
    · rintro rfl; exact ⟨_, _, rfl⟩
    · rintro ⟨_, _, h⟩; cases h; rfl
  | _ => simp

theorem Lowered.declared_mono (h : Lowered o st instr code after) {key : String}
    (hk : key ∈ st.declared) : key ∈ after.declared :=
  h.mem_declared.mpr (.inl hk)

theorem LoweredAll.mem_declared {last : State} {instrs : List Tuple.Instr}
    (h : LoweredAll o st instrs code last) {key : String} :
    key ∈ last.declared ↔
      key ∈ st.declared ∨ ∃ instr ∈ instrs, ∃ type value, instr = .declare key type value := by
  induction h with
  | nil => simp
  | cons hi _ ih =>
    simp only [ih, hi.mem_declared, List.mem_cons, or_and_right, exists_or, exists_eq_left,
      or_assoc]

/-- **The slot of a declared name does not change.** -/
theorem Lowered.slot_of_declared (h : Lowered o st instr code after) {key : String}
    (hk : key ∈ st.declared) : after.slots.get? key = st.slots.get? key := by
  cases h with
  | @fold name _ _ _ hd _ _ =>
    have hne : key ≠ name := fun he => hd (he ▸ hk)
    simp [Table.get?_set, hne]
  | _ => rfl

theorem LoweredAll.slot_of_declared {last : State} {instrs : List Tuple.Instr}
    (h : LoweredAll o st instrs code last) {key : String} (hk : key ∈ st.declared) :
    last.slots.get? key = st.slots.get? key := by
  induction h with
  | nil => rfl
  | cons hi _ ih => rw [ih (hi.declared_mono hk), hi.slot_of_declared hk]

/-- A slot keeps its type. -/
theorem Lowered.slot_type (h : Lowered o st instr code after) {key : String} {type : DataType}
    (hk : (st.slots.get? key).map Slot.type = some type) :
    (after.slots.get? key).map Slot.type = some type := by
  cases h with
  | @fold name _ _ _ _ _ htype =>
    simp only [Table.get?_set]
    split
    · next he =>
      subst he
      rw [hk, Option.getD_some] at htype
      rw [htype]
      rfl
    · exact hk
  | _ => exact hk

theorem LoweredAll.slot_type {last : State} {instrs : List Tuple.Instr}
    (h : LoweredAll o st instrs code last) {key : String} {type : DataType}
    (hk : (st.slots.get? key).map Slot.type = some type) :
    (last.slots.get? key).map Slot.type = some type := by
  induction h with
  | nil => exact hk
  | cons hi _ ih => exact ih (hi.slot_type hk)

/-- The slots of names that are not declared yet are the initial ones. -/
def Fresh (st : State) : Prop :=
  ∀ key slot, key ∉ st.declared → st.slots.get? key = some slot → slot = Slot.default slot.type

theorem fresh_ofVars {vars : Table DataType} (h : State.ofVars vars = .ok st) : Fresh st := by
  obtain ⟨-, rfl⟩ := ofVars_eq_ok.mp h
  intro key slot _ hs
  obtain ⟨type, -, rfl⟩ := Option.map_eq_some_iff.mp ((Table.get?_mapValues _ _ _).symm.trans hs)
  rw [Slot.default_type]

theorem Lowered.fresh (h : Lowered o st instr code after) (hf : Fresh st) : Fresh after := by
  intro key slot hk hs
  have hk' : key ∉ st.declared := fun hd => hk (h.declared_mono hd)
  cases h with
  | @fold name _ _ _ _ _ _ =>
    have hne : key ≠ name := fun he => hk (State.mem_declared_declare.mpr (.inr he))
    exact hf key slot hk' (by simpa [Table.get?_set, hne] using hs)
  | _ => exact hf key slot hk' hs

theorem LoweredAll.fresh {last : State} {instrs : List Tuple.Instr}
    (h : LoweredAll o st instrs code last) (hf : Fresh st) : Fresh last := by
  induction h with
  | nil => exact hf
  | cons hi _ ih => exact ih (hi.fresh hf)

theorem Lowered.nodup_keys (h : Lowered o st instr code after) (hn : st.slots.keys.Nodup) :
    after.slots.keys.Nodup := by
  cases h with
  | fold => exact Table.nodup_keys_set hn _ _
  | _ => exact hn

theorem LoweredAll.nodup_keys {last : State} {instrs : List Tuple.Instr}
    (h : LoweredAll o st instrs code last) (hn : st.slots.keys.Nodup) :
    last.slots.keys.Nodup := by
  induction h with
  | nil => exact hn
  | cons hi _ ih => exact ih (hi.nodup_keys hn)

/-- Where variables are entered once, they have one slot each. -/
theorem nodup_keys_ofTuple {p : Tuple.Program} {q : Program} (h : Program.ofTuple o p = .ok q)
    (hn : p.vars.keys.Nodup) : q.slots.keys.Nodup := by
  obtain ⟨st, last, hst, hl, hslots⟩ := ofTuple_eq_ok.mp h
  obtain ⟨-, rfl⟩ := ofVars_eq_ok.mp hst
  rw [hslots]
  exact hl.nodup_keys (by simpa using hn)

/-- **Variables keep the types of the table.** -/
theorem slot_of_ofTuple {p : Tuple.Program} {q : Program} (h : Program.ofTuple o p = .ok q)
    {name : String} {type : DataType} (ht : p.vars.get? name = some type) :
    ∃ text, q.slots.get? name = some ⟨type, text⟩ := by
  obtain ⟨st, last, hst, hl, hslots⟩ := ofTuple_eq_ok.mp h
  obtain ⟨-, rfl⟩ := ofVars_eq_ok.mp hst
  have hk : (last.slots.get? name).map Slot.type = some type := hl.slot_type (by simp [ht])
  rw [hslots]
  obtain ⟨⟨t, text⟩, hs, rfl⟩ := Option.map_eq_some_iff.mp hk
  exact ⟨text, hs⟩

end Steps

end Lower
end Risclet
