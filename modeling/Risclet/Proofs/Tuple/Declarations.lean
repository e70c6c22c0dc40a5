import Risclet.Proofs.Node.Parts
import Risclet.Proofs.Table
import Risclet.Proofs.Tuple.Rules

/-! # The table of variables

The table only grows, and only by declarations: a variable is entered with the type of its first
declaration, at the end (`Statement.entries_eq`), and keeps it (`Statements.get?_mono`).  The types
in it are the two that have a name in the language, and these have storage
(`Statements.hasStorage`).
-/
namespace Risclet

/-- Types of which there are variables in memory. -/
def DataType.HasStorage (t : DataType) : Prop :=
  t = .int32 ∨ t = .string

theorem DataType.hasStorage_of_ofName? {name : String} {type : DataType}
    (h : ofName? name = some type) : type.HasStorage := by
  rw [ofName?] at h
  split at h
  · cases h; exact .inl rfl
  · split at h
    · cases h; exact .inr rfl
    · cases h

namespace Tuple
variable {o : Options} {vars after last : Table DataType}

/-! ## Operands and values -/

theorem Operand.operators_eq {node : Node} {item : Item} (h : Operand o vars node item) :
    node.operators = [] := by
  cases h <;> rw [Node.operators] <;> simp

theorem Operand.names_eq {node : Node} {item : Item} (h : Operand o vars node item) :
    item.names = node.names := by
  cases h <;> rw [Node.names] <;> simp [Item.names]

theorem Value.ne_absent {node : Node} {code : List Instr} {item : Item}
    (h : Value o vars node code item) : item ≠ .absent := by
  cases h with
  | operand hop => cases hop <;> simp
  | _ => simp

/-! ## Growth of the table -/

/-- A variable in the table keeps its type; a new one gets the type of its declaration. -/
theorem get?_declare (vars : Table DataType) (name key : String) (type : DataType) :
    (declare vars name type).get? key =
      if key = name then some ((vars.get? name).getD type) else vars.get? key := by
  unfold declare
  by_cases hc : vars.contains name = true
  · obtain ⟨t, ht⟩ := Table.contains_eq_true.mp hc
    by_cases hk : key = name <;> simp [hc, hk, ht]
  · have hn := Table.contains_eq_false.mp (by simpa using hc)
    simp [hc, Table.get?_set, hn]

theorem contains_declare {name key : String} {type : DataType} :
    (declare vars name type).contains key = true ↔ vars.contains key = true ∨ key = name := by
  rw [Table.contains, get?_declare]
  by_cases hk : key = name <;> simp [hk, Table.contains]

/-- The entries that a statement makes if it is accepted: that of the name which it declares, unless
it is there already. -/
def statementEntries (vars : Table DataType) : Node → List (String × DataType)
  | .decl name typeName _ _ =>
    if vars.contains name then [] else (DataType.ofName? typeName).toList.map (name, ·)
  | _ => []

theorem entries_declare (vars : Table DataType) (name : String) (type : DataType) :
    (declare vars name type).entries =
      vars.entries ++ if vars.contains name then [] else [(name, type)] := by
  unfold declare
  split
  · rw [List.append_nil]
  · next hc =>
    have hname : name ∉ vars.entries.map Prod.fst := mt Table.contains_iff_mem_keys.mpr hc
    have hset := Table.setEntry_append name type vars.entries []
    rw [List.append_nil, if_neg hname] at hset
    exact hset

/-- **An accepted statement adds to the table at its end.** -/
theorem Statement.entries_eq {node : Node} {code : List Instr}
    (h : Statement o vars node code after) :
    after.entries = vars.entries ++ statementEntries vars node := by
  cases h with
  | declare ht | initialise ht => simp [entries_declare, statementEntries, ht]
  | assign | call => simp [statementEntries]

theorem Statement.get?_mono {node : Node} {code : List Instr}
    (h : Statement o vars node code after) {name : String} {type : DataType}
    (ht : vars.get? name = some type) : after.get? name = some type := by
  cases h with
  | declare | initialise =>
    rw [get?_declare]
    split
    · next he => subst he; simp [ht]
    · exact ht
  | _ => exact ht

/-- **A variable keeps its first type.** -/
theorem Statements.get?_mono {nodes : List Node} {instrs : List Instr}
    (h : Statements o vars nodes instrs last) {name : String} {type : DataType}
    (ht : vars.get? name = some type) : last.get? name = some type := by
  induction h with
  | nil => exact ht
  | cons hs _ ih => exact ih (hs.get?_mono ht)

theorem Statement.hasStorage {node : Node} {code : List Instr}
    (h : Statement o vars node code after) (hv : ∀ e ∈ vars.entries, e.2.HasStorage) :
    ∀ e ∈ after.entries, e.2.HasStorage := by
  have key : ∀ {name typeName type}, DataType.ofName? typeName = some type →
      ∀ e ∈ (Tuple.declare vars name type).entries, e.2.HasStorage := by
    intro name typeName type ht e he
    unfold Tuple.declare at he
    split at he
    · exact hv e he
    · rcases Table.mem_entries_set he with he | rfl
      · exact hv e he
      · exact DataType.hasStorage_of_ofName? ht
  cases h with
  | declare ht _ => exact key ht
  | initialise ht _ _ _ => exact key ht
  | _ => exact hv

/-- Declared types have storage. -/
theorem Statements.hasStorage {nodes : List Node} {instrs : List Instr}
    (h : Statements o vars nodes instrs last) (hv : ∀ e ∈ vars.entries, e.2.HasStorage) :
    ∀ e ∈ last.entries, e.2.HasStorage := by
  induction h with
  | nil => exact hv
  | cons hs _ ih => exact ih (hs.hasStorage hv)

theorem Statement.nodup_keys {node : Node} {code : List Instr}
    (h : Statement o vars node code after) (hn : vars.keys.Nodup) : after.keys.Nodup := by
  have hdeclare : ∀ name type, (Tuple.declare vars name type).keys.Nodup := by
    intro name type
    unfold Tuple.declare
    split
    · exact hn
    · exact Table.nodup_keys_set hn name type
  cases h with
  | declare | initialise => exact hdeclare _ _
  | _ => exact hn

/-- Every variable is entered once. -/
theorem Statements.nodup_keys {nodes : List Node} {instrs : List Instr}
    (h : Statements o vars nodes instrs last) (hn : vars.keys.Nodup) : last.keys.Nodup := by
  induction h with
  | nil => exact hn
  | cons hs _ ih => exact ih (hs.nodup_keys hn)

end Tuple
end Risclet
