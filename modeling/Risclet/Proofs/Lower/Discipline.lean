import Risclet.Proofs.Lower.Accesses
import Risclet.Proofs.Lower.Simulation

/-! # Lowering disciplined tuple programs

A tuple program need not come from statements to be lowered rightly; it is enough that it is
disciplined.  The results that it reads are known then, so that it runs to its end
(`LoweredAll.exists_run`).  Its register code keeps step with it, since the registers for results,
for variables and for arguments are three banks; the code accesses integer variables only, and
leaves the strings where the slots have put them (`LoweredAll.string_slot`).

Main statement: `lowering_preserves_meaning`.
-/
namespace Risclet
namespace Lower

section Steps
variable {o : Options} {st after last : State} {instr : Tuple.Instr} {instrs : List Tuple.Instr}
  {code : List Instr} {item : Item} {name : String}

/-! ## Disciplined programs run to their end -/

theorem Loaded.exists_value {dest : Register} {load : Instr} (h : Loaded dest item load)
    (s : Tuple.Machine) : ∃ v, s.value? item = some v := by
  cases h <;> exact ⟨_, rfl⟩

theorem Placed.exists_value {next after : Int} {r : Register} (h : Placed next item r code after)
    {s : Tuple.Machine} (ht : ∀ id ∈ item.temps, ∃ v, s.temps id = some v) :
    ∃ v, s.value? item = some v := by
  cases h with
  | temp id => exact ht id List.mem_cons_self
  | loaded hl => exact hl.exists_value s

theorem Stored.exists_store (h : Stored name item code) {s : Tuple.Machine}
    (ht : ∀ id ∈ item.temps, ∃ v, s.temps id = some v) (ha : item ≠ .absent) :
    ∃ s', s.store? name item = some s' := by
  cases h with
  | absent => exact absurd rfl ha
  | int | ident => exact ⟨_, rfl⟩
  | temp id =>
    obtain ⟨v, hv⟩ := ht id List.mem_cons_self
    exact ⟨_, Option.map_eq_some_iff.mpr ⟨v, hv, rfl⟩⟩

/-- An instruction that is accepted can be executed where the results that it reads are known. -/
theorem Lowered.exists_step (h : Lowered o st instr code after) {s : Tuple.Machine}
    (ht : ∀ id ∈ instr.temps, ∃ v, s.temps id = some v) : ∃ s', s.step o instr = some s' := by
  cases h with
  | @fold name type literal value hd hl _ =>
    cases value with
    | int | str => exact ⟨_, rfl⟩
    | _ => cases hl
  | @declare name type value _ _ hs =>
    by_cases ha : value = .absent
    · exact ⟨s, by rw [ha]; rfl⟩
    · rw [s.step_declare ha hs.ne_string]
      exact hs.exists_store ht ha
  | @assign name value _ hs =>
    by_cases ha : value = .absent
    · exact ⟨s, by rw [ha]; rfl⟩
    · rw [s.step_assign ha]
      exact hs.exists_store ht ha
  | call hl =>
    obtain ⟨v, hv⟩ := hl.exists_value s
    exact ⟨_, Option.map_eq_some_iff.mpr ⟨v, hv, rfl⟩⟩
  | @binary op left right temp next last l r leftCode rightCode hl hr =>
    obtain ⟨a, ha⟩ := hl.exists_value fun id hid => ht id (List.mem_append_left _ hid)
    obtain ⟨b, hb⟩ := hr.exists_value fun id hid => ht id (List.mem_append_right _ hid)
    exact ⟨s.setTemp temp (op.eval a b), by simp [Tuple.Machine.step, ha, hb]⟩

/-- **Instructions that read live results run to their end.**  In front of them stand `before`. -/
theorem LoweredAll.exists_run (h : LoweredAll o st instrs code last) {before : List Tuple.Instr}
    {s : Tuple.Machine} (hs : ∀ id, Tuple.Live before id → ∃ v, s.temps id = some v)
    (hlive : ∀ first instr behind, instrs = first ++ instr :: behind →
      ∀ id ∈ instr.temps, Tuple.Live (before ++ first) id) :
    ∃ s', s.run o instrs = some s' := by
  induction h generalizing before s with
  | nil => exact ⟨s, rfl⟩
  | @cons st next last instr instrs code rest hi _ ih =>
    obtain ⟨hfirst, hothers⟩ := Tuple.forall_place_cons.mp hlive
    rw [List.append_nil] at hfirst
    obtain ⟨mid, hstep⟩ := hi.exists_step fun id hid => hs id (hfirst id hid)
    obtain ⟨s', hrun⟩ := ih (Tuple.Machine.step_live hstep hs) (by simpa using hothers)
    exact ⟨s', Option.bind_eq_some_iff.mpr ⟨mid, hstep, hrun⟩⟩

/-! ## Strings and numerals in the slots -/

theorem declares_of_string? {text : String} (h : instr.string? name = some text) :
    ∃ type, instr = .declare name type (.str text) := by
  unfold Tuple.Instr.string? at h
  split at h
  · split at h
    · next he => cases h; exact ⟨_, by rw [he]⟩
    · cases h
  · cases h

theorem string?_eq_none_of_not_declares (h : ¬ instr.Declares name) :
    instr.string? name = none := by
  refine Option.eq_none_iff_forall_ne_some.mpr fun text ht => ?_
  obtain ⟨type, rfl⟩ := declares_of_string? ht
  exact h ⟨type, .str text, rfl⟩

/-- A string can be given by a first declaration only. -/
theorem Lowered.string?_eq_none (h : Lowered o st instr code after) (hd : name ∈ st.declared) :
    instr.string? name = none := by
  refine Option.eq_none_iff_forall_ne_some.mpr fun text ht => ?_
  obtain ⟨type, rfl⟩ := declares_of_string? ht
  cases h with
  | fold hnot _ _ => exact hnot hd
  | declare _ hs => cases hs

theorem LoweredAll.strings_eq_nil (h : LoweredAll o st instrs code last)
    (hd : name ∈ st.declared) : instrs.filterMap (Tuple.Instr.string? name) = [] := by
  induction h with
  | nil => rfl
  | cons hi _ ih =>
    rw [List.filterMap_cons_none (hi.string?_eq_none hd)]
    exact ih (hi.declared_mono hd)

theorem Lowered.string_slot (h : Lowered o st instr code after) (hfresh : Fresh st)
    (hd : name ∉ st.declared) {text : String}
    (hslot : after.slots.get? name = some ⟨.string, text⟩) :
    text = Text.Quoted.quote ((instr.string? name).getD "") := by
  -- A slot that does not change is empty.
  have hempty : st.slots.get? name = some ⟨.string, text⟩ → instr.string? name = none →
      text = Text.Quoted.quote ((instr.string? name).getD "") := by
    intro hs hnone
    rw [hnone]
    exact congrArg Slot.initial (hfresh name _ hd hs)
  cases h with
  | @fold key type literal value _ hl _ =>
    rw [Table.get?_set] at hslot
    split at hslot
    · next he =>
      cases value with
      | str string =>
        cases hslot
        simp [Tuple.Instr.string?, he, Item.text]
      | int => cases hl; cases hslot
      | _ => cases hl
    · next he =>
      refine hempty hslot (string?_eq_none_of_not_declares ?_)
      rwa [Tuple.Instr.declares_declare]
  | declare _ hs => exact hempty hslot (by cases hs <;> rfl)
  | _ => exact hempty hslot rfl

/-- **A string slot has the string that the instructions give its variable.** -/
theorem LoweredAll.string_slot (h : LoweredAll o st instrs code last) (hfresh : Fresh st)
    (hd : name ∉ st.declared) {text : String}
    (hslot : last.slots.get? name = some ⟨.string, text⟩) :
    text = Text.Quoted.quote (Tuple.finalString name instrs) := by
  induction h with
  | nil => exact congrArg Slot.initial (hfresh name _ hd hslot)
  | @cons st next last instr instrs code rest hi hrest ih =>
    by_cases hdecl : name ∈ next.declared
    · -- This is the first declaration, and the slot does not change after it.
      rw [hrest.slot_of_declared hdecl] at hslot
      rw [hi.string_slot hfresh hd hslot, Tuple.finalString, List.filterMap_cons,
        hrest.strings_eq_nil hdecl]
      cases instr.string? name <;> rfl
    · have hnone : instr.string? name = none :=
        string?_eq_none_of_not_declares fun h => hdecl (hi.mem_declared.mpr (.inr h))
      rw [ih (hi.fresh hfresh) hdecl hslot, Tuple.finalString, Tuple.finalString,
        List.filterMap_cons_none hnone]

theorem numeric_ofVars {vars : Table DataType} (h : State.ofVars vars = .ok st) :
    Numeric st.slots := by
  have hfresh := fresh_ofVars h
  obtain ⟨-, rfl⟩ := ofVars_eq_ok.mp h
  intro name text hslot
  exact ⟨0, congrArg Slot.initial (hfresh name _ (by simp) hslot)⟩

theorem Lowered.numeric (h : Lowered o st instr code after) (hn : Numeric st.slots) :
    Numeric after.slots := by
  cases h with
  | @fold key type literal value _ hl _ =>
    intro name text hslot
    rw [Table.get?_set] at hslot
    split at hslot
    · cases value with
      | int v => cases hslot; exact ⟨v, rfl⟩
      | str => cases hl; cases hslot
      | _ => cases hl
    · exact hn name text hslot
  | _ => exact hn

theorem LoweredAll.numeric (h : LoweredAll o st instrs code last) (hn : Numeric st.slots) :
    Numeric last.slots := by
  induction h with
  | nil => exact hn
  | cons hi _ ih => exact ih (hi.numeric hn)

end Steps

/-! ## The meaning of disciplined programs -/

/-- **Lowering preserves the meaning of disciplined tuple programs.**  Where such a program is
accepted, it runs to its end.  From memory that begins as the slots say, whatever the registers hold
in the beginning and after each call, register code makes the calls of the tuple program, and in the
end the integer variables have the values that the tuple program gives them; memory outside of them
is as it was, and the slots have the strings of the tuple program there. -/
theorem lowering_preserves_meaning {o : Options} {p : Tuple.Program} {q : Program}
    (hq : Program.ofTuple o p = .ok q) (hp : Tuple.Disciplined p) :
    ∃ s, Tuple.Machine.run o ⟨World.start, fun _ => none⟩ p.instrs = some s ∧
      (∃ m, Initialises q.slots m) ∧
      (∀ name text, q.slots.get? name = some ⟨.string, text⟩ →
        text = Text.Quoted.quote (Tuple.finalString name p.instrs)) ∧
      ∀ (env : Environment) (regs : Registers) (m : Memory), Initialises q.slots m →
        ∃ t, Machine.run env ⟨⟨m, []⟩, regs⟩ q.instrs = some t ∧ t.events = s.events ∧
          (∀ name, IsWord q.slots name → t.memory name = s.memory name) ∧
          ∀ name, ¬ IsWord q.slots name → t.memory name = m name := by
  obtain ⟨st, last, hst, hl, hslots⟩ := ofTuple_eq_ok.mp hq
  have hundeclared : st.declared = [] := by rw [(ofVars_eq_ok.mp hst).2]
  have haccess : ∀ name, Accesses q.instrs name → IsWord q.slots name := by
    intro name ha
    exact slot_of_ofTuple hq (hp.words name ((ofTuple_accesses hq).mp ha))
  have hreads : ∀ instr ∈ p.instrs, ∀ name ∈ instr.reads, IsWord q.slots name := by
    intro instr hi name hn
    obtain ⟨before, behind, he⟩ := List.mem_iff_append.mp hi
    exact slot_of_ofTuple hq
      (hp.words name ⟨before, instr, behind, he, List.mem_append_left _ hn⟩)
  obtain ⟨s, hrun⟩ : ∃ s, Tuple.Machine.run o ⟨World.start, fun _ => none⟩ p.instrs = some s :=
    hl.exists_run (fun id hid => absurd hid Tuple.not_live_nil) hp.live
  refine ⟨s, hrun, ?_, fun name text hslot => ?_, fun env regs m hm => ?_⟩
  · rw [hslots]
    exact (hl.numeric (numeric_ofVars hst)).exists_initialises
  · rw [hslots] at hslot
    exact hl.string_slot (fresh_ofVars hst) (by simp [hundeclared]) hslot
  · obtain ⟨t, ht, hevents, hmem⟩ :=
      ofTuple_simulates_of_timely hq hp.timely hreads hrun env regs hm
    refine ⟨t, ht, hevents, hmem, fun name hn => Machine.run_memory ht ?_⟩
    exact fun ha => hn (haccess name ha)

/-- A program whose results live long: they are set twice, used together, and stay while variables
are stored and declared again. -/
def crossing : Tuple.Program where
  instrs :=
    [.declare "s" .string (.str "sum"), .declare "x" .int32 (.int 7), .declare "y" .int32 .absent,
      .binary (.arith .add) (.ident "x") (.int 5) 9,
      .binary (.arith .subtract) (.ident "x") (.temp 9) 3,
      .binary (.arith .multiply) (.temp 9) (.temp 3) 9,
      .assign "x" (.temp 3), .declare "x" .int32 (.int 2),
      .binary (.arith .divide) (.temp 9) (.temp 3) 4, .assign "y" (.temp 4),
      .call "Output" [.ident "y"],
      .binary (.arith .subtract) (.ident "x") (.ident "y") 9, .declare "x" .int32 (.temp 9)]
  vars := ⟨[("s", .string), ("x", .int32), ("y", .int32)]⟩

theorem crossing_disciplined : Tuple.Disciplined crossing := by
  decide

/-- It is lowered, and the code puts out `12` and leaves the string alone, whatever the registers
hold. -/
theorem lowering_preserves_meaning_crossing :
    ∃ q, Program.ofTuple {} crossing = .ok q ∧
      ∀ (env : Environment) (regs : Registers) (m : Memory), Initialises q.slots m →
        ∃ t, Machine.run env ⟨⟨m, []⟩, regs⟩ q.instrs = some t ∧
          t.events = [⟨"print_int", 12⟩] ∧ t.memory "x" = -10 ∧ t.memory "y" = 12 ∧
          t.memory "s" = m "s" := by
  refine ⟨_, rfl, fun env regs m hm => ?_⟩
  obtain ⟨s, hs, -, -, hall⟩ := lowering_preserves_meaning rfl crossing_disciplined
  obtain ⟨t, ht, hevents, hmem, hother⟩ := hall env regs m hm
  cases hs
  refine ⟨t, ht, hevents.trans ?_, (hmem "x" ⟨_, rfl⟩).trans ?_, (hmem "y" ⟨_, rfl⟩).trans ?_,
    hother "s" ?_⟩
  · decide
  · decide
  · decide
  · rintro ⟨text, hslot⟩
    cases hslot

end Lower
end Risclet
