import Risclet.Proofs.Tuple.Declarations

/-! # Names are declared before they are used

`Scoped word known instrs` says of tuple instructions that begin where the names in `known` are
declared: each reads only names that are declared by then and for which `word` holds, and assigns
only to names that are declared.  Flattened statements are of this form where declarations are
compulsory (`Statements.scoped`).
-/
namespace Risclet
namespace Tuple

/-- The variables that an instruction reads. -/
def Instr.reads : Instr → List String
  | declare _ _ value | assign _ value => value.names
  | call _ args => args.flatMap Item.names
  | binary _ left right _ => left.names ++ right.names
  | foreign _ => []

/-- Whether an instruction declares a name. -/
def Instr.Declares (instr : Instr) (name : String) : Prop :=
  ∃ type value, instr = .declare name type value

theorem Instr.declares_declare {name key : String} {type : DataType} {value : Item} :
    (Instr.declare name type value).Declares key ↔ key = name := by
  constructor
  · rintro ⟨_, _, ⟨⟩⟩; rfl
  · rintro rfl; exact ⟨_, _, rfl⟩

/-- Instructions that use only names declared before, and read only names for which `word` holds;
`known` are the names that are declared where they begin. -/
def Scoped (word : String → Prop) : (known : String → Prop) → List Instr → Prop
  | _, [] => True
  | known, instr :: instrs =>
    (∀ name ∈ instr.reads, known name ∧ word name) ∧
    (∀ name value, instr = .assign name value → known name) ∧
    Scoped word (fun key => known key ∨ instr.Declares key) instrs

section Rules
variable {o : Options} {vars after last : Table DataType} {word : String → Prop}

/-- What an operand reads is declared, if names have to be. -/
theorem Operand.reads_known {node : Node} {item : Item} (h : Operand o vars node item)
    (hstrict : o.strict = true)
    (hword : ∀ name ∈ node.names, vars.contains name = true → word name) :
    ∀ name ∈ item.names, vars.contains name = true ∧ word name := by
  intro name hn
  have hk : vars.contains name = true := by
    cases h with
    | int _ => cases hn
    | ident hu =>
      obtain rfl := List.mem_singleton.mp hn
      exact hu hstrict
  exact ⟨hk, hword name (h.names_eq ▸ hn) hk⟩

/-- An instruction that declares nothing does not change what is known. -/
theorem Scoped.pass {known : String → Prop} {instr : Instr} {instrs : List Instr}
    (hs : Scoped word known instrs) (hd : ∀ key, ¬ instr.Declares key)
    (hr : ∀ name ∈ instr.reads, known name ∧ word name)
    (ha : ∀ name value, instr = .assign name value → known name) :
    Scoped word known (instr :: instrs) := by
  refine ⟨hr, ha, ?_⟩
  simpa only [hd, or_false] using hs

/-- A declaration makes its name known. -/
theorem Scoped.declare {name : String} {type : DataType} {item : Item} {instrs : List Instr}
    (hs : Scoped word (fun key => (Tuple.declare vars name type).contains key = true) instrs)
    (hr : ∀ key ∈ item.names, vars.contains key = true ∧ word key) :
    Scoped word (fun key => vars.contains key = true) (.declare name type item :: instrs) := by
  refine ⟨hr, by simp, ?_⟩
  have hk : ∀ key, (vars.contains key = true ∨ (Instr.declare name type item).Declares key) =
      ((Tuple.declare vars name type).contains key = true) := by
    intro key
    rw [contains_declare, Instr.declares_declare]
  simpa only [hk] using hs

/-- The code of a value, in front of instructions that read the item. -/
theorem Value.scoped {node : Node} {code instrs : List Instr} {item : Item}
    (h : Value o vars node code item) (hstrict : o.strict = true)
    (hword : ∀ name ∈ node.names, vars.contains name = true → word name)
    (hs : (∀ name ∈ item.names, vars.contains name = true ∧ word name) →
      Scoped word (fun key => vars.contains key = true) instrs) :
    Scoped word (fun key => vars.contains key = true) (code ++ instrs) := by
  cases h with
  | operand hop => exact hs (hop.reads_known hstrict hword)
  | string => exact hs (by simp [Item.names])
  | operation hl hr =>
    rw [Node.names] at hword
    refine (hs (by simp [Item.names])).pass (by simp [Instr.Declares]) ?_ (by simp)
    intro name hn
    rcases List.mem_append.mp hn with hn | hn
    · exact hl.reads_known hstrict (fun n h => hword n (List.mem_append_left _ h)) name hn
    · exact hr.reads_known hstrict (fun n h => hword n (List.mem_append_right _ h)) name hn

/-- The instructions of a statement use names that are declared before it. -/
theorem Statement.scoped {node : Node} {code rest : List Instr}
    (h : Statement o vars node code after) (hstrict : o.strict = true)
    (hword : ∀ name ∈ node.names, vars.contains name = true → word name)
    (hrest : Scoped word (fun key => after.contains key = true) rest) :
    Scoped word (fun key => vars.contains key = true) (code ++ rest) := by
  cases h with
  | declare _ _ => exact hrest.declare (by simp [Item.names])
  | initialise _ _ hv _ =>
    rw [Node.names] at hword
    rw [List.append_assoc]
    exact hv.scoped hstrict hword hrest.declare
  | assign hu hv _ =>
    rw [Node.names] at hword
    rw [List.append_assoc]
    refine hv.scoped hstrict hword fun hi => hrest.pass (by simp [Instr.Declares]) hi ?_
    rintro name value ⟨⟩
    exact hu hstrict
  | call hop =>
    rw [Node.names, Node.namesAll, Node.namesAll, List.append_nil] at hword
    refine hrest.pass (by simp [Instr.Declares]) ?_ (by simp)
    simpa [Instr.reads] using hop.reads_known hstrict hword

/-- **Flattened statements use declared names only.** -/
theorem Statements.scoped {nodes : List Node} {instrs : List Instr}
    (h : Statements o vars nodes instrs last) (hstrict : o.strict = true)
    (hword : ∀ node ∈ nodes, ∀ name ∈ node.names, last.contains name = true → word name) :
    Scoped word (fun key => vars.contains key = true) instrs := by
  induction h with
  | nil => trivial
  | cons hs hrest ih =>
    obtain ⟨hfirst, hothers⟩ := List.forall_mem_cons.mp hword
    refine hs.scoped hstrict (fun name hn hk => hfirst name hn ?_) (ih hothers)
    obtain ⟨type, ht⟩ := Table.contains_eq_true.mp hk
    exact Table.contains_eq_true.mpr ⟨type, hrest.get?_mono (hs.get?_mono ht)⟩

/-- **The table holds first types.**  A name that was not in the table gets the type of its first
declaration. -/
theorem Statements.get?_eq {nodes : List Node} {instrs : List Instr}
    (h : Statements o vars nodes instrs last) (name : String) :
    last.get? name = (vars.get? name).or ((Node.firstType? name nodes).bind DataType.ofName?) := by
  induction h with
  | nil => simp [Node.firstType?]
  | @cons vars next last node nodes code rest hs _ ih =>
    rw [ih]
    have key : ∀ {key typeName : String} {value : Node} {pos : Pos} {type : DataType},
        DataType.ofName? typeName = some type →
        ((Tuple.declare vars key type).get? name).or
            ((Node.firstType? name nodes).bind DataType.ofName?) =
          (vars.get? name).or ((Node.firstType? name (.decl key typeName value pos :: nodes)).bind
            DataType.ofName?) := by
      intro key typeName value pos type ht
      rw [get?_declare, Node.firstType?]
      by_cases hk : name = key
      · subst hk
        cases vars.get? name <;> simp [ht]
      · simp [hk, Ne.symm hk]
    cases hs with
    | declare ht _ => exact key ht
    | initialise ht _ _ _ => exact key ht
    | assign | call => rw [Node.firstType?]; simp

end Rules
end Tuple
end Risclet
