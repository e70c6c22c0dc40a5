import Mathlib.Data.List.Basic
import Risclet.Compile
import Risclet.Proofs.Assembly.Code
import Risclet.Proofs.Assembly.Reader
import Risclet.Proofs.Lower.Accesses
import Risclet.Proofs.Lower.DataTable

/-! # Labels and references

A compiled program defines a label for every variable in its data section, and its code refers to
variables by loading the addresses of their labels.  Labels are different from each other and from
the symbols that the program needs for itself (`labels_ofLower`, `Statements.not_reserved`).

Where declarations are compulsory every reference has its label.  Where they are not, a name that is
used and declared nowhere stays a reference, and the linker has to find it elsewhere; these are the
only ones (`symbols_closed`).
-/
namespace Risclet

/-- The stages behind the parser succeed one after the other. -/
theorem generate_eq_ok {o : Options} {nodes : List Node} {g : Generation} :
    generate o nodes = .ok g ↔ Tuple.Program.ofStatements o nodes = .ok g.tuple ∧
      Lower.Program.ofTuple o g.tuple = .ok g.lower ∧ Assembly.emit o g.lower = .ok g.assembly := by
  constructor
  · intro h
    obtain ⟨tuple, ht, h⟩ := Outcome.bind_eq_ok.mp h
    obtain ⟨lower, hl, h⟩ := Outcome.bind_eq_ok.mp h
    obtain ⟨assembly, ha, h⟩ := Outcome.bind_eq_ok.mp h
    cases h
    exact ⟨Outcome.mapError_eq_ok.mp ht, hl, ha⟩
  · rintro ⟨ht, hl, ha⟩
    simp [generate, ht, hl, ha]

/-- A text is compiled by the stages one after the other. -/
theorem compile_eq_ok {o : Options} {source : String} {c : Compilation} :
    compile o source = .ok c ↔ tokenize source = .ok c.tokens ∧
      Node.parse c.tokens = .ok c.statements ∧ generate o c.statements = .ok c.toGeneration := by
  constructor
  · intro h
    obtain ⟨tokens, ht, h⟩ := Outcome.bind_eq_ok.mp h
    obtain ⟨statements, hs, h⟩ := Outcome.bind_eq_ok.mp h
    obtain ⟨generation, hg, h⟩ := Outcome.bind_eq_ok.mp h
    cases h
    exact ⟨ht, hs, hg⟩
  · rintro ⟨ht, hs, hg⟩
    rw [compile, ht, Outcome.bind_ok, hs, Outcome.bind_ok, hg]
    rfl

/-- All the stages of a compilation. -/
theorem compile_stages {o : Options} {source : String} {c : Compilation}
    (h : compile o source = .ok c) : tokenize source = .ok c.tokens ∧
      Node.parse c.tokens = .ok c.statements ∧
      Tuple.Program.ofStatements o c.statements = .ok c.tuple ∧
      Lower.Program.ofTuple o c.tuple = .ok c.lower ∧ Assembly.emit o c.lower = .ok c.assembly := by
  obtain ⟨htokens, hparse, hgenerate⟩ := compile_eq_ok.mp h
  exact ⟨htokens, hparse, generate_eq_ok.mp hgenerate⟩

/-- No variable takes a reserved symbol. -/
theorem Tuple.Statements.not_reserved {o : Options} {vars last : Table DataType}
    {nodes : List Node} {instrs : List Tuple.Instr} (h : Statements o vars nodes instrs last)
    {node : Node} (hnode : node ∈ nodes) {name : String} (hname : node.declaredName? = some name) :
    name ∉ o.reserved := by
  induction h with
  | nil => cases hnode
  | cons hs _ ih =>
    rcases List.mem_cons.mp hnode with rfl | hnode
    · cases hs with
      | declare _ hr => cases hname; exact hr
      | initialise _ hr _ _ => cases hname; exact hr
      | _ => cases hname
    · exact ih hnode

namespace Assembly

/-- The symbol whose address an instruction loads. -/
def Instr.reference? : Instr → Option String
  | loadAddress _ symbol => some symbol
  | _ => none

/-- The symbols whose addresses the code of a program loads. -/
def Program.references (p : Program) : List String :=
  p.code.filterMap Instr.reference?

/-- The labels in the data section of a program. -/
def Program.labels (p : Program) : List String :=
  p.data.filterMap DataLine.label?

/-- The symbols whose addresses lines of machine code load, as the lines are read. -/
def referencesRead (lines : List String) : List String :=
  lines.filterMap fun line => (Instr.read line).bind Instr.reference?

/-- The labels of lines of data, as the lines are read. -/
def labelsRead (lines : List String) : List String :=
  lines.filterMap fun line => (DataLine.read line).bind DataLine.label?

/-- **The lines of code show the references.** -/
theorem Program.referencesRead_code (p : Program) :
    referencesRead (p.code.map Instr.text) = p.references := by
  rw [referencesRead, List.filterMap_map, Program.references]
  refine List.filterMap_congr fun instr _ => ?_
  rw [Function.comp_apply, Instr.read_text, Option.bind_some]

/-- **The lines of data show the labels**, if there is no colon in one. -/
theorem Program.labelsRead_data {p : Program} (h : ∀ name ∈ p.labels, ':' ∉ name.toList) :
    labelsRead (p.data.map DataLine.text) = p.labels := by
  rw [labelsRead, List.filterMap_map, Program.labels]
  refine List.filterMap_congr fun line hline => ?_
  rw [Function.comp_apply, DataLine.forall_read_text h line hline, Option.bind_some]

theorem Encoded.references_eq {instr : Lower.Instr} {code : List Instr} (h : Encoded instr code) :
    code.filterMap Instr.reference? = instr.variables := by
  cases h with
  | @loadLit dest d value _ =>
    have hnone : (loadInteger d value).reference? = none := by
      unfold loadInteger
      split <;> rfl
    simp [hnone, Lower.Instr.variables]
  | _ => rfl

/-- **Code refers to the variables that it accesses.** -/
theorem references_codeOf {instrs : List Lower.Instr} {code : List Instr}
    (h : codeOf instrs = .ok code) :
    code.filterMap Instr.reference? = instrs.flatMap Lower.Instr.variables :=
  filterMap_codeOf (fun _ _ hi => hi.references_eq) h

section Symbols
variable {p : Lower.Program} {program : Program}

theorem labels_ofLower (h : Program.ofLower p = .ok program) :
    program.labels = p.slots.keys := by
  obtain ⟨hdata, -⟩ := Program.ofLower_eq_ok.mp h
  exact (laid_of_dataSection hdata).labels_eq

theorem mem_references_ofLower (h : Program.ofLower p = .ok program) {name : String} :
    name ∈ program.references ↔ Lower.Accesses p.instrs name := by
  obtain ⟨-, hcode⟩ := Program.ofLower_eq_ok.mp h
  rw [Program.references, references_codeOf hcode, List.mem_flatMap, Lower.Accesses]

end Symbols

/-- **Symbols are defined, or they are names that the program does not declare.**  The assembler
text of accepted statements has a label for every variable of the table; labels are different from
each other, from the entry label and from the symbols of the library.  The code refers to what the
register code loads and stores.  Under compulsory declarations every reference has its label; in any
case those without label are exactly the names that some statement uses and none declares.  The
lines of the text show the references and, if there is no colon in one, the labels. -/
theorem symbols_closed {o : Options} {nodes : List Node} {g : Generation}
    (h : generate o nodes = .ok g) :
    ∃ program, Program.ofLower g.lower = .ok program ∧ g.assembly = program.text o ∧
      program.labels = g.lower.slots.keys ∧ program.labels.Nodup ∧
      (∀ name ∈ program.labels, name ≠ entryLabel ∧ name ∉ o.intrinsics.values) ∧
      (∀ name, name ∈ program.references ↔ ∃ i ∈ g.lower.instrs, name ∈ i.variables) ∧
      (o.strict = true → ∀ name ∈ program.references, name ∈ program.labels) ∧
      (∀ name, name ∈ program.references ∧ name ∉ program.labels ↔
        (∃ node ∈ nodes, name ∈ node.uses) ∧ ∀ node ∈ nodes, node.declaredName? ≠ some name) ∧
      referencesRead (program.code.map Instr.text) = program.references ∧
      ((∀ name ∈ program.labels, ':' ∉ name.toList) →
        labelsRead (program.data.map DataLine.text) = program.labels) := by
  obtain ⟨hp, hq, hemit⟩ := generate_eq_ok.mp h
  obtain ⟨program, hprogram, htext⟩ := Outcome.map_eq_ok.mp hemit
  have hs := Tuple.ofStatements_eq_ok.mp hp
  have hlabels := labels_ofLower hprogram
  have hlabel : ∀ name, name ∈ program.labels ↔ ∃ node ∈ nodes, node.declaredName? = some name := by
    intro name
    rw [hlabels, Lower.keys_ofTuple hp hq, Node.declaredNames, List.mem_eraseDups,
      List.mem_filterMap]
  have hreference : ∀ name, name ∈ program.references ↔ Tuple.Accessed [] g.tuple.instrs name :=
    fun name => (mem_references_ofLower hprogram).trans (Lower.ofTuple_accesses hq)
  refine ⟨program, hprogram, htext.symm, hlabels, ?_, ?_, ?_, ?_, ?_,
    program.referencesRead_code, Program.labelsRead_data⟩
  · rw [hlabels]
    exact Lower.nodup_keys_ofTuple hq (hs.nodup_keys .nil)
  · intro name hname
    obtain ⟨node, hnode, hd⟩ := (hlabel name).mp hname
    have hr := hs.not_reserved hnode hd
    exact ⟨fun he => hr (he ▸ List.mem_cons_self), fun hm => hr (List.mem_cons_of_mem _ hm)⟩
  · exact fun name => mem_references_ofLower hprogram
  · intro hstrict name hname
    have hc := hs.contains_of_accessed hstrict ((hreference name).mp hname)
    rw [hlabels, Lower.keys_ofTuple hp hq, ← Tuple.keys_ofStatements hp]
    exact Table.contains_iff_mem_keys.mp hc
  · intro name
    constructor
    · rintro ⟨href, hnot⟩
      have hnone : ∀ node ∈ nodes, node.declaredName? ≠ some name :=
        fun node hnode hd => hnot ((hlabel name).mpr ⟨node, hnode, hd⟩)
      exact ⟨(hs.accessed_undeclared hnone).mp ((hreference name).mp href), hnone⟩
    · rintro ⟨hused, hnone⟩
      refine ⟨(hreference name).mpr ((hs.accessed_undeclared hnone).mpr hused), fun hmem => ?_⟩
      obtain ⟨node, hnode, hd⟩ := (hlabel name).mp hmem
      exact hnone node hnode hd

/-- A program that uses one name before its declaration and another without any. -/
def stray : List Node :=
  [.call "Output" [.ident "x" Pos.unknown] Pos.unknown,
    .assign "ghost" (.int 3 Pos.unknown) Pos.unknown,
    .decl "x" "Int32" (.ident "ghost" Pos.unknown) Pos.unknown,
    .decl "s" "String" (.str "spirit" Pos.unknown) Pos.unknown]

/-- It refers to one name that it does not define.  With declarations in front it is closed. -/
theorem symbols_closed_stray :
    (∃ g program, generate { strict := false } stray = .ok g ∧
      Program.ofLower g.lower = .ok program ∧
      ("ghost" ∈ program.references ∧ "ghost" ∉ program.labels) ∧
      ¬ ("x" ∈ program.references ∧ "x" ∉ program.labels)) ∧
    ∃ g program, generate {} (.decl "ghost" "Int32" .absent Pos.unknown ::
        .decl "x" "Int32" .absent Pos.unknown :: stray) = .ok g ∧
      Program.ofLower g.lower = .ok program ∧ "ghost" ∈ program.references ∧
      ∀ name ∈ program.references, name ∈ program.labels := by
  constructor
  · have hg : generate { strict := false } stray = .ok _ := rfl
    obtain ⟨program, hprogram, -, -, -, -, -, -, hstray, -⟩ := symbols_closed hg
    refine ⟨_, program, hg, hprogram, (hstray "ghost").mpr ?_, fun hx => ?_⟩
    · simp [stray, Node.uses, Node.names, Node.namesAll, Node.declaredName?]
    · have hnone := ((hstray "x").mp hx).2
      simp [stray, Node.declaredName?] at hnone
  · have hg : generate {} (.decl "ghost" "Int32" .absent Pos.unknown ::
        .decl "x" "Int32" .absent Pos.unknown :: stray) = .ok _ := rfl
    obtain ⟨program, hprogram, -, -, -, -, hrefs, hclosed, -⟩ := symbols_closed hg
    exact ⟨_, program, hg, hprogram, (hrefs "ghost").mpr (by decide), hclosed rfl⟩

end Assembly
end Risclet
