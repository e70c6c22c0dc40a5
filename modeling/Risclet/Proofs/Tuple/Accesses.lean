import Risclet.Proofs.Tuple.Discipline

/-! # The variables that statements access

Flattened statements access only names that are declared, where declarations are compulsory
(`Statements.contains_of_accessed`).  The types of the names are another matter: a literal has to be
of the type of its variable, but nothing else is checked.  So a string variable can be read, and a
result or another variable can be stored into it; it is accessed as soon as a statement does more
with it than declare it (`Statements.accessed_string`).  Where declarations are not compulsory, a
name that is declared nowhere is accessed as soon as a statement uses it
(`Statements.accessed_undeclared`).
-/
namespace Risclet
namespace Tuple

/-- The names in the table are those that the instructions declare. -/
def Enters (instrs : List Instr) (vars : Table DataType) : Prop :=
  ∀ key, vars.contains key = true ↔ ∃ instr ∈ instrs, instr.Declares key

variable {o : Options} {vars after last : Table DataType} {node : Node} {nodes : List Node}
  {code instrs before : List Instr} {item : Item} {name : String}

/-! ## The table and the declarations -/

theorem enters_nil : Enters [] Table.empty := by
  intro key
  simp [Table.contains]

theorem Enters.pass (h : Enters before vars) (hcode : ∀ i ∈ code, ∀ key, ¬ i.Declares key) :
    Enters (before ++ code) vars := by
  intro key
  rw [h key]
  constructor
  · rintro ⟨i, hi, hd⟩
    exact ⟨i, List.mem_append_left _ hi, hd⟩
  · rintro ⟨i, hi, hd⟩
    rcases List.mem_append.mp hi with hi | hi
    · exact ⟨i, hi, hd⟩
    · exact absurd hd (hcode i hi key)

theorem Enters.declare (h : Enters before vars) {type : DataType} :
    Enters (before ++ [.declare name type item]) (Tuple.declare vars name type) := by
  intro key
  rw [contains_declare, h key]
  simp [or_and_right, exists_or, Instr.declares_declare]

theorem Value.not_declares (h : Value o vars node code item) :
    ∀ i ∈ code, ∀ key, ¬ i.Declares key := by
  cases h <;> simp [Instr.Declares]

/-- **A statement enters the names that its instructions declare.** -/
theorem Statement.enters (h : Statement o vars node code after) (hbefore : Enters before vars) :
    Enters (before ++ code) after := by
  cases h with
  | declare _ _ => exact hbefore.declare
  | initialise _ _ hv _ =>
    rw [← List.append_assoc]
    exact (hbefore.pass hv.not_declares).declare
  | assign _ hv _ =>
    rw [← List.append_assoc]
    exact (hbefore.pass hv.not_declares).pass (by simp [Instr.Declares])
  | call _ => exact hbefore.pass (by simp [Instr.Declares])

theorem Statements.enters (h : Statements o vars nodes instrs last)
    (hbefore : Enters before vars) : Enters (before ++ instrs) last := by
  induction h generalizing before with
  | nil => simpa using hbefore
  | cons hs _ ih =>
    rw [← List.append_assoc]
    exact ih (hs.enters hbefore)

/-! ## Accesses are to declared names -/

theorem Scoped.declared_of_accessed {word known : String → Prop} (h : Scoped word known instrs)
    (ha : Accessed before instrs name) : known name ∨ ∃ i ∈ instrs, i.Declares name := by
  induction instrs generalizing known before with
  | nil => exact absurd ha not_accessed_nil
  | cons instr instrs ih =>
    obtain ⟨hreads, hassign, hrest⟩ := h
    rcases accessed_cons.mp ha with hn | ha
    · rcases List.mem_append.mp hn with hn | hn
      · exact .inl (hreads name hn).1
      · cases instr with
        | declare key type value =>
          obtain ⟨rfl, -⟩ := Instr.mem_stores_declare.mp hn
          exact .inr ⟨_, List.mem_cons_self, _, _, rfl⟩
        | assign key value =>
          obtain ⟨rfl, -⟩ := Instr.mem_stores_assign.mp hn
          exact .inl (hassign key value rfl)
        | _ => cases hn
    · rcases ih hrest ha with (hk | hd) | ⟨i, hi, hd⟩
      · exact .inl hk
      · exact .inr ⟨instr, List.mem_cons_self, hd⟩
      · exact .inr ⟨i, List.mem_cons_of_mem _ hi, hd⟩

/-- **Strict programs access variables of their table only.** -/
theorem Statements.contains_of_accessed (h : Statements o Table.empty nodes instrs last)
    (hstrict : o.strict = true) (ha : Accessed [] instrs name) : last.contains name = true := by
  have hscope : Scoped (fun _ => True) _ instrs := h.scoped hstrict (fun _ _ _ _ _ => trivial)
  rcases hscope.declared_of_accessed ha with hk | hd
  · simp [Table.contains] at hk
  · exact (h.enters enters_nil name).mpr hd

/-! ## Accesses to string variables -/

/-- The code of a value and the item that holds it access what the value reads. -/
theorem Value.accessed (h : Value o vars node code item) :
    Accessed before code name ∨ name ∈ item.names ↔ name ∈ node.names := by
  cases h with
  | operand hop => simp [not_accessed_nil, hop.names_eq]
  | string => simp [not_accessed_nil, Item.names, Node.names]
  | operation hl hr =>
    have htemp : (Item.temp 0).names = [] := rfl
    rw [Node.names, htemp]
    simp [accessed_cons, not_accessed_nil, Instr.reads, Instr.stores, hl.names_eq, hr.names_eq]

/-- A value is computed and then stored. -/
theorem Value.accessed_concat (h : Value o vars node code item) {instr : Instr}
    (hreads : instr.reads = item.names) : Accessed before (code ++ [instr]) name ↔
      name ∈ node.names ∨ name ∈ instr.stores (before ++ code) := by
  have hlast : Accessed (before ++ code) [instr] name ↔
      name ∈ item.names ∨ name ∈ instr.stores (before ++ code) := by
    simp [accessed_cons, not_accessed_nil, hreads]
  rw [accessed_append, hlast, ← or_assoc, h.accessed]

/-- What a string variable is declared with is stored when the program runs, unless it is a string
literal. -/
theorem Value.stored_string (h : Value o vars node code item) (hbefore : Enters before vars)
    (hs : Storable (some .string) (!vars.contains name) item) :
    (item.literalType? = none ∨ ∃ earlier ∈ before ++ code, earlier.Declares name) ↔
      ¬ (node = .absent ∨ ∃ text pos, node = .str text pos) := by
  cases h with
  | operand hop =>
    cases hop with
    | int _ => exact absurd ((hs _ rfl).2 _ rfl) (by simp)
    | ident _ => simp [Item.literalType?]
  | @string text pos =>
    -- Only a first declaration can have a string.
    have hfirst : ¬ vars.contains name = true := by simpa using (hs _ rfl).1 rfl
    rw [hbefore name] at hfirst
    simpa [Item.literalType?] using hfirst
  | operation => simp [Item.literalType?]

/-- **A statement accesses a string variable if it does more than declare it.** -/
theorem Statement.accessed_string (h : Statement o vars node code after)
    (hbefore : Enters before vars)
    (hstring : ∀ type, after.get? name = some type → type = .string) :
    Accessed before code name ↔ ¬ node.Spares name := by
  cases h with
  | declare _ _ =>
    simp [accessed_cons, not_accessed_nil, Instr.reads, Instr.stores, Item.names, Node.Spares,
      Node.names]
  | @initialise key typeName value pos type first item _ _ hv hs =>
    rw [hv.accessed_concat rfl, Instr.mem_stores_declare, Node.Spares]
    by_cases hkey : key = name
    · subst hkey
      have htype := hstring _ (by rw [get?_declare, if_pos rfl])
      rw [htype] at hs
      rw [hv.stored_string hbefore hs]
      by_cases hn : key ∈ value.names <;> simp [hn, hv.ne_absent]
    · simp [hkey]
  | @assign key value pos first item _ hv _ =>
    rw [hv.accessed_concat rfl, Instr.mem_stores_assign, Node.Spares]
    by_cases hn : name ∈ value.names <;> simp [hn, hv.ne_absent]
  | @call callee arg pos item hop =>
    have hspares : (Node.call callee [arg] pos).Spares name ↔ name ∉ arg.names := by
      simp [Node.Spares, Node.names, Node.namesAll]
    rw [hspares]
    simp [accessed_cons, not_accessed_nil, Instr.reads, Instr.stores, hop.names_eq]

/-- **Statements access a string variable if one of them does more than declare it.** -/
theorem Statements.accessed_string (h : Statements o vars nodes instrs last)
    (hbefore : Enters before vars) (hstring : last.get? name = some .string) :
    Accessed before instrs name ↔ ∃ node ∈ nodes, ¬ node.Spares name := by
  induction h generalizing before with
  | nil => simp [not_accessed_nil]
  | @cons vars next last node nodes code rest hs hrest ih =>
    have hnext : ∀ type, next.get? name = some type → type = .string := by
      intro type ht
      exact Option.some.inj ((hrest.get?_mono ht).symm.trans hstring)
    rw [accessed_append, hs.accessed_string hbefore hnext, ih (hs.enters hbefore) hstring]
    simp [or_and_right, exists_or]

/-! ## Accesses to names without declaration -/

/-- **A statement accesses what it uses**, except the name that it declares. -/
theorem Statement.accessed_undeclared (h : Statement o vars node code after)
    (hname : node.declaredName? ≠ some name) : Accessed before code name ↔ name ∈ node.uses := by
  cases h with
  | declare _ _ =>
    simp [accessed_cons, not_accessed_nil, Instr.reads, Instr.stores, Item.names, Node.uses,
      Node.names]
  | @initialise key typeName value pos type first item _ _ hv _ =>
    have hkey : key ≠ name := fun he => hname (congrArg some he)
    rw [hv.accessed_concat rfl, Instr.mem_stores_declare, Node.uses, Node.names]
    · simp [hkey]
    · simp
  | @assign key value pos first item _ hv _ =>
    rw [hv.accessed_concat rfl, Instr.mem_stores_assign, Node.uses, List.mem_cons]
    simp [hv.ne_absent, or_comm, eq_comm]
  | @call callee arg pos item hop =>
    simp [accessed_cons, not_accessed_nil, Instr.reads, Instr.stores, hop.names_eq, Node.uses,
      Node.names, Node.namesAll]

theorem Statements.accessed_undeclared (h : Statements o vars nodes instrs last)
    (hname : ∀ node ∈ nodes, node.declaredName? ≠ some name) :
    Accessed before instrs name ↔ ∃ node ∈ nodes, name ∈ node.uses := by
  induction h generalizing before with
  | nil => simp [not_accessed_nil]
  | cons hs _ ih =>
    obtain ⟨hfirst, hothers⟩ := List.forall_mem_cons.mp hname
    rw [accessed_append, hs.accessed_undeclared hfirst, ih hothers]
    simp

end Tuple
end Risclet
