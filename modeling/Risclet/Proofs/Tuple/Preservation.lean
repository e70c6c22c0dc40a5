import Risclet.Proofs.Tuple.Declarations
import Risclet.Proofs.Tuple.Meaning

/-! # Flattening preserves meaning

A statement and its tuple instructions do the same to variables and calls.  The instructions keep
no result from one statement for the next, so whatever results are known at the beginning do not
matter.  Main statement: `Statements.run_eq`.
-/
namespace Risclet
namespace Tuple

variable {o : Options} {vars after last : Table DataType} {node : Node}

theorem Operand.value?_eq {item : Item} (h : Operand o vars node item) (s : Machine) :
    ∃ v, s.value? item = some v ∧ node.value? s.memory = some v := by
  cases h <;> exact ⟨_, rfl, by rw [Node.value?]⟩

/-- The code of a value leaves variables and calls alone and puts the value into its item. -/
theorem Value.run_eq {code : List Instr} {item : Item} (h : Value o vars node code item)
    (hops : ∀ text, .foreign text ∉ node.operators) (hstr : item.literalType? ≠ some .string)
    (s : Machine) :
    ∃ s' v, s.run o code = some s' ∧ s'.toWorld = s.toWorld ∧ s'.value? item = some v ∧
      node.value? s.memory = some v := by
  cases h with
  | operand hop =>
    obtain ⟨v, hi, hn⟩ := hop.value?_eq s
    exact ⟨s, v, rfl, rfl, hi, hn⟩
  | string => exact absurd rfl hstr
  | @operation op left right pos l r hl hr =>
    obtain ⟨a, hla, hna⟩ := hl.value?_eq s
    obtain ⟨b, hrb, hnb⟩ := hr.value?_eq s
    cases op with
    | foreign text => exact absurd (by simp [Node.operators]) (hops text)
    | arith op =>
      refine ⟨s.setTemp 0 (op.eval a b), op.eval a b, ?_, rfl, ?_, ?_⟩
      · simp [Machine.step, hla, hrb]
      · simp [Machine.value?, Machine.setTemp]
      · simp [Node.value?, hna, hnb]

/-- A declaration with a value is a store, in the statement and in the instruction. -/
theorem Value.exec_decl {code : List Instr} {item : Item} (h : Value o vars node code item)
    (hstr : item.literalType? ≠ some .string) (w : World) (name typeName : String) (pos : Pos) :
    Node.exec o w (.decl name typeName node pos) = (node.value? w.memory).map (w.store name) := by
  cases h with
  | operand hop => cases hop <;> simp [Node.exec]
  | string => exact absurd rfl hstr
  | operation _ _ => simp [Node.exec]

/-- The code of a value, and behind it an instruction that stores the value. -/
theorem Value.run_store {code : List Instr} {item : Item} {instr : Instr} {name : String}
    (h : Value o vars node code item) (hops : ∀ text, .foreign text ∉ node.operators)
    (hstr : item.literalType? ≠ some .string)
    (hstep : ∀ s : Machine, s.step o instr = s.store? name item) (s : Machine) :
    ∃ s', s.run o (code ++ [instr]) = some s' ∧
      (node.value? s.memory).map (s.toWorld.store name) = some s'.toWorld := by
  obtain ⟨s', v, hrun, hw, hi, hn⟩ := h.run_eq hops hstr s
  refine ⟨{ s' with toWorld := s'.toWorld.store name v }, ?_, ?_⟩
  · rw [Machine.run_append, hrun]
    simp [hstep, Machine.store?, hi]
  · simp [hn, hw]

/-- **A statement does what its instructions do.** -/
theorem Statement.run_eq {code : List Instr} (h : Statement o vars node code after)
    (hops : ∀ text, .foreign text ∉ node.operators) (s : Machine) :
    ∃ s', s.run o code = some s' ∧ node.exec o s.toWorld = some s'.toWorld := by
  cases h with
  | declare _ _ => exact ⟨s, rfl, rfl⟩
  | @initialise name typeName value pos type first item _ _ hv _ =>
    rw [Node.operators] at hops
    by_cases hstr : item.literalType? = some .string
    · -- A string goes into its slot, and the statement does nothing when it is reached.
      cases hv with
      | operand hop => cases hop <;> cases hstr
      | string => exact ⟨s, rfl, rfl⟩
      | operation _ _ => cases hstr
    · obtain ⟨s', hrun, hvalue⟩ :=
        hv.run_store hops hstr (fun s => s.step_declare hv.ne_absent hstr o name type) s
      exact ⟨s', hrun, (hv.exec_decl hstr _ name typeName pos).trans hvalue⟩
  | @assign name value pos first item _ hv hs =>
    rw [Node.operators] at hops
    have hstr : item.literalType? ≠ some .string := fun hl => by
      have := (hs _ hl).1 rfl
      cases this
    exact hv.run_store hops hstr (fun s => s.step_assign hv.ne_absent o name) s
  | @call name arg pos item hop =>
    obtain ⟨v, hi, hn⟩ := hop.value?_eq s
    refine ⟨⟨s.toWorld.call (o.resolve name) v, fun _ => none⟩, ?_, ?_⟩
    · simp [Machine.step, hi]
    · simp [Node.exec, hn]

/-- **Flattening preserves meaning.** -/
theorem Statements.run_eq {nodes : List Node} {instrs : List Instr}
    (h : Statements o vars nodes instrs last)
    (hops : ∀ text, .foreign text ∉ Node.operatorsAll nodes) (s : Machine) :
    ∃ s', s.run o instrs = some s' ∧ Node.run o s.toWorld nodes = some s'.toWorld := by
  induction h generalizing s with
  | nil => exact ⟨s, rfl, rfl⟩
  | @cons _ _ _ node nodes code rest hs _ ih =>
    simp only [Node.operatorsAll, List.mem_append, not_or, forall_and] at hops
    obtain ⟨mid, hrun, hexec⟩ := hs.run_eq hops.1 s
    obtain ⟨s', hrun', hexec'⟩ := ih hops.2 mid
    refine ⟨s', ?_, ?_⟩
    · rw [Machine.run_append]
      exact Option.bind_eq_some_iff.mpr ⟨mid, hrun, hrun'⟩
    · exact Option.bind_eq_some_iff.mpr ⟨_, hexec, hexec'⟩

end Tuple
end Risclet
