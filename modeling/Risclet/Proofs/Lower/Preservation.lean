import Risclet.Proofs.Lower.Progress
import Risclet.Proofs.Lower.Simulation
import Risclet.Proofs.Tuple.Preservation

/-! # Compilation preserves meaning

Flattening preserves the meaning of statements, and lowering that of tuple programs whose names are
declared before they are used and hold integers where they are read.  Strict flattening makes such
programs of statements that leave their string variables alone (`scoped_of_spareStrings`), so the
two steps compose: register code does what the statements say (`compiled_meaning`).
-/
namespace Risclet
namespace Lower

section Variables
variable {o : Options} {nodes : List Node} {p : Tuple.Program} {q : Program} {name : String}

/-- The slot of a variable has the type of its first declaration. -/
theorem slot_of_firstType? (hp : Tuple.Program.ofStatements o nodes = .ok p)
    (hq : Program.ofTuple o p = .ok q) {typeName : String} {type : DataType}
    (hf : Node.firstType? name nodes = some typeName) (ht : DataType.ofName? typeName = some type) :
    ∃ text, q.slots.get? name = some ⟨type, text⟩ := by
  refine slot_of_ofTuple hq ?_
  rw [(Tuple.ofStatements_eq_ok.mp hp).get?_eq name]
  simp [hf, ht]

/-- A variable of an accepted program has been declared as an integer or as a string. -/
theorem firstType?_of_contains (hp : Tuple.Program.ofStatements o nodes = .ok p)
    (hc : p.vars.contains name = true) :
    Node.firstType? name nodes = some "Int32" ∨ Node.firstType? name nodes = some "String" := by
  have hs := Tuple.ofStatements_eq_ok.mp hp
  obtain ⟨type, ht⟩ := Table.contains_eq_true.mp hc
  rw [hs.get?_eq name, Table.get?_empty, Option.none_or] at ht
  obtain ⟨typeName, hf, hn⟩ := Option.bind_eq_some_iff.mp ht
  have hname := DataType.name_of_ofName? hn
  rw [hf, ← hname]
  rcases DataType.hasStorage_of_ofName? hn with rfl | rfl
  · exact .inl rfl
  · exact .inr rfl

/-- Names are declared before they are used, and those that are read are integers. -/
theorem scoped_of_spareStrings (hstrict : o.strict = true)
    (hp : Tuple.Program.ofStatements o nodes = .ok p) (hq : Program.ofTuple o p = .ok q)
    (hspare : Node.SpareStrings nodes) :
    Tuple.Scoped (IsWord q.slots) (fun _ => False) p.instrs := by
  have hs := Tuple.ofStatements_eq_ok.mp hp
  have hword : ∀ node ∈ nodes, ∀ name ∈ node.names, p.vars.contains name = true →
      IsWord q.slots name := by
    intro node hnode name hname hc
    rcases firstType?_of_contains hp hc with hf | hf
    · exact slot_of_firstType? hp hq hf rfl
    · exact absurd hname (hspare name hf node hnode).not_mem_names
  have hnone : (fun _ => False) =
      fun key => (Table.empty : Table DataType).contains key = true := by
    simp [Table.contains]
  rw [hnone]
  exact hs.scoped hstrict hword

end Variables

/-- Memory can begin as sound slots say. -/
theorem exists_initialises {slots : Table Slot} (h : ∀ e ∈ slots.entries, e.2.Sound) :
    ∃ m, Initialises slots m := by
  refine Numeric.exists_initialises fun name text hslot => ?_
  obtain ⟨value, -, htext⟩ := (h _ (Table.mem_entries_of_get? hslot)).int_of_type rfl
  exact ⟨value, htext⟩

/-- **Compilation preserves meaning.**  Where statements are accepted strictly and leave their
string variables alone, they have a meaning.  From memory that begins as the slots say, whatever
the registers hold in the beginning and after each call, register code makes the calls of the
statements, and in the end the integer variables have the values that the statements give them. -/
theorem compiled_meaning {o : Options} {nodes : List Node} {p : Tuple.Program} {q : Program}
    (hstrict : o.strict = true) (hp : Tuple.Program.ofStatements o nodes = .ok p)
    (hq : Program.ofTuple o p = .ok q) (hspare : Node.SpareStrings nodes) :
    ∃ w, Node.run o World.start nodes = some w ∧ (∃ m, Initialises q.slots m) ∧
      ∀ (env : Environment) (regs : Registers) (m : Memory), Initialises q.slots m →
        ∃ t, Machine.run env ⟨⟨m, []⟩, regs⟩ q.instrs = some t ∧ t.events = w.events ∧
          ∀ name, Node.firstType? name nodes = some "Int32" → t.memory name = w.memory name := by
  obtain ⟨hsound, hops⟩ := sound_ofTuple hp hq
  obtain ⟨s, hrun, hsource⟩ :=
    (Tuple.ofStatements_eq_ok.mp hp).run_eq hops ⟨World.start, fun _ => none⟩
  refine ⟨s.toWorld, hsource, exists_initialises hsound, fun env regs m hm => ?_⟩
  obtain ⟨t, ht, hevents, hmem⟩ :=
    ofTuple_simulates hq (scoped_of_spareStrings hstrict hp hq hspare) hrun env regs hm
  exact ⟨t, ht, hevents, fun name hf => hmem name (slot_of_firstType? hp hq hf rfl)⟩

/-- A program that declares a variable again and reads it in its own declaration. -/
def redeclaration : List Node :=
  [.decl "x" "Int32" (.int 7 Pos.unknown) Pos.unknown,
    .decl "s" "String" (.str "seven" Pos.unknown) Pos.unknown,
    .decl "x" "Int32" (.binary (.arith .divide) (.ident "x" Pos.unknown) (.int (-2) Pos.unknown)
      Pos.unknown) Pos.unknown,
    .call "Output" [.ident "x" Pos.unknown] Pos.unknown]

/-- It is compiled, and what is compiled puts out the second value, whatever the registers hold. -/
theorem compiled_meaning_redeclaration :
    ∃ p q, Tuple.Program.ofStatements {} redeclaration = .ok p ∧ Program.ofTuple {} p = .ok q ∧
      ∀ (env : Environment) (regs : Registers) (m : Memory), Initialises q.slots m →
        ∃ t, Machine.run env ⟨⟨m, []⟩, regs⟩ q.instrs = some t ∧
          t.events = [⟨"print_int", -3⟩] ∧ t.memory "x" = -3 := by
  have hspare : Node.SpareStrings redeclaration := by
    intro name hf
    obtain rfl : "s" = name := by
      by_cases hx : "x" = name
      · simp [redeclaration, Node.firstType?, hx] at hf
      · simpa [redeclaration, Node.firstType?, hx] using hf
    simp [redeclaration, Node.Spares, Node.names, Node.namesAll]
  have hp : Tuple.Program.ofStatements {} redeclaration = .ok _ := rfl
  refine ⟨_, _, hp, rfl, fun env regs m hm => ?_⟩
  obtain ⟨w, hw, -, hall⟩ := compiled_meaning rfl hp rfl hspare
  obtain ⟨t, ht, hevents, hmem⟩ := hall env regs m hm
  cases hw
  refine ⟨t, ht, hevents.trans ?_, (hmem "x" rfl).trans ?_⟩
  · decide
  · decide

end Lower
end Risclet
