import Risclet.Proofs.Assembly.Branches
import Risclet.Proofs.Assembly.Decoder
import Risclet.Proofs.Assembly.Reader
import Risclet.Proofs.Lower.Progress
import Risclet.Proofs.Node.Lexemes
import Risclet.Proofs.Token.Printing

/-! # Nothing in a source breaks the lines of its listing

The assembler reads lines, and the listing is made of texts that come from the source: names,
integers and strings.  None of them holds a line feed.  Names are words, integers are printed with
digits and a sign, and a line feed in a string is written as an escape.  So the lines of the listing
are those that were put into it (`splitLines_unlines`, `oneLine_lines`).

Nor is a line taken for another one.  The lines of a section end at the first empty line, the label
of a line of data ends at its first colon, as no name holds one, and machine code is decoded.  So
the listing tells the register program that it was made from (`Program.read_lines`,
`toLower?_ofLower`).

Main statement: `listing_unambiguous`.
-/
namespace Risclet

/-! ## Lines -/

namespace Text

/-- A text without line feeds. -/
def OneLine (s : String) : Prop :=
  '\n' ∉ s.toList

instance (s : String) : Decidable (OneLine s) :=
  inferInstanceAs (Decidable (¬ _))

@[simp] theorem oneLine_append {s t : String} : OneLine (s ++ t) ↔ OneLine s ∧ OneLine t := by
  simp [OneLine]

@[simp] theorem oneLine_int (v : Int) : OneLine (toString v) := by
  intro h
  rcases mem_toString_int h with hd | hd
  · exact absurd hd (by decide)
  · exact absurd hd (by decide)

@[simp] theorem oneLine_nat (n : Nat) : OneLine (toString n) :=
  oneLine_int n

/-- A string is written on one line, whatever it holds. -/
theorem Quoted.oneLine_quote (s : String) : OneLine (quote s) := by
  intro h
  have hbody : '\n' ∉ encode s.toList := fun hm => (isBody_encode _).ne_newline _ hm rfl
  rw [quote, String.toList_ofList, List.mem_cons, List.mem_append] at h
  rcases h with h | h | h
  · exact absurd h (by decide)
  · exact hbody h
  · exact absurd h (by decide)

/-- The lines of a text, with what stands behind its last line feed. -/
def splitLines (s : String) : List String :=
  (s.toList.splitOn '\n').map String.ofList

/-- **The lines of a text are those that it was put together from.** -/
theorem splitLines_unlines {lines : List String} (h : ∀ line ∈ lines, OneLine line) :
    splitLines (unlines lines) = lines ++ [""] := by
  induction lines with
  | nil => rfl
  | cons line lines ih =>
    obtain ⟨hline, hlines⟩ := List.forall_mem_cons.mp h
    have htext : (unlines (line :: lines)).toList =
        line.toList ++ '\n' :: (unlines lines).toList := by
      simp [unlines]
    have hplain : ∀ c ∈ line.toList, (c == '\n') = false := by
      intro c hc
      exact beq_false_of_ne (fun he => hline (he ▸ hc))
    rw [splitLines, htext, List.splitOn,
      List.splitOnP_append_cons_of_forall_mem hplain '\n' (beq_self_eq_true _), List.map_cons,
      String.ofList_toList, List.cons_append, ← ih hlines]
    rfl

/-! ## Names -/

/-- A character that neither begins nor continues a name is in no name. -/
theorem IsName.not_mem {cs : List Char} (h : IsName cs) {x : Char} (hstart : isNameStart x = false)
    (hword : isWordChar x = false) : x ∉ cs := by
  obtain ⟨c, rest, rfl, hc, hrest⟩ := h
  intro hx
  rcases List.mem_cons.mp hx with rfl | hx
  · rw [hstart] at hc
    cases hc
  · rw [hrest x hx] at hword
    cases hword

theorem IsName.oneLine {name : String} (h : IsName name.toList) : OneLine name :=
  h.not_mem (by decide) (by decide)

theorem IsName.colon_not_mem {cs : List Char} (h : IsName cs) : ':' ∉ cs :=
  h.not_mem (by decide) (by decide)

end Text

open Text

/-- **The words of a source are names.** -/
theorem IsWord.isName {source name : String} {tokens : List Token}
    (h : tokenize source = .ok tokens) (hw : IsWord tokens name) : IsName name.toList := by
  obtain ⟨pos, ht⟩ := hw
  obtain ⟨front, piece, back, -, hcuts, hd, -⟩ := exists_piece_of_tokenize h ht (by simp)
  have hcut := hcuts.cut
  generalize hkind : TokenKind.identifier = kind at hd
  cases hd with
  | name text =>
    show IsName (String.ofList text).toList
    rw [String.toList_ofList]
    cases hcut with
    | name hc hrest _ => exact ⟨_, _, rfl, hc, hrest⟩
  | number => cases hkind
  | string => cases hkind
  | symbol kind c =>
    cases hcut with
    | symbol hk _ => exact absurd hkind (TokenKind.ne_of_ofSymbol? hk).1

namespace Node

theorem Spelled.isWord_of_callee? {tokens : List Token} {node : Node} {name : String}
    (h : node.Spelled tokens) (hn : node.callee? = some name) : IsWord tokens name := by
  cases h with
  | call ht _ =>
    cases hn
    exact ⟨_, ht⟩
  | _ => cases hn

end Node

/-- The initial value in a sound slot stands on one line. -/
theorem Lower.Slot.Sound.oneLine {slot : Slot} (h : slot.Sound) : OneLine slot.initial := by
  cases h with
  | int _ => exact oneLine_int _
  | string value => exact Quoted.oneLine_quote value

namespace Assembly

/-! ## Symbols of a compiled source -/

section Symbols
variable {o : Options} {source name : String} {c : Compilation} {program : Program}

theorem isName_of_declared (h : compile o source = .ok c)
    (hd : name ∈ Node.declaredNames c.statements) : IsName name.toList := by
  obtain ⟨htokens, hparse, -⟩ := compile_stages h
  obtain ⟨node, hnode, hd⟩ := List.mem_filterMap.mp (List.mem_eraseDups.mp hd)
  exact ((Node.parse_spelled hparse node hnode).isWord_of_declaredName? hd).isName htokens

/-- The labels of the data section are names. -/
theorem isName_of_label (h : compile o source = .ok c)
    (hprogram : Program.ofLower c.lower = .ok program) (hl : name ∈ program.labels) :
    IsName name.toList := by
  obtain ⟨-, -, hp, hq, -⟩ := compile_stages h
  rw [labels_ofLower hprogram, Lower.keys_ofTuple hp hq] at hl
  exact isName_of_declared h hl

/-- **The symbols whose addresses are loaded are names.**  They are declared, or used without a
declaration. -/
theorem isName_of_reference (h : compile o source = .ok c)
    (hprogram : Program.ofLower c.lower = .ok program) (hr : name ∈ program.references) :
    IsName name.toList := by
  obtain ⟨htokens, hparse, hp, hq, -⟩ := compile_stages h
  by_cases hd : name ∈ Node.declaredNames c.statements
  · exact isName_of_declared h hd
  · have hnone : ∀ node ∈ c.statements, node.declaredName? ≠ some name := by
      intro node hnode hname
      exact hd (List.mem_eraseDups.mpr (List.mem_filterMap.mpr ⟨node, hnode, hname⟩))
    have haccess := (Lower.ofTuple_accesses hq).mp ((mem_references_ofLower hprogram).mp hr)
    have hs := Tuple.ofStatements_eq_ok.mp hp
    obtain ⟨node, hnode, hu⟩ := (hs.accessed_undeclared hnone).mp haccess
    exact ((Node.parse_spelled hparse node hnode).isWord_of_uses hu).isName htokens

/-- The symbols that are branched to are names, or symbols of the library. -/
theorem target_cases (h : compile o source = .ok c)
    (hprogram : Program.ofLower c.lower = .ok program) (ht : name ∈ program.targets) :
    IsName name.toList ∨ name ∈ o.intrinsics.values := by
  obtain ⟨htokens, hparse, hp, hq, -⟩ := compile_stages h
  rw [targets_ofLower hp hq hprogram] at ht
  obtain ⟨callee, hcallee, rfl⟩ := List.mem_map.mp ht
  cases hget : o.intrinsics.get? callee with
  | none =>
    obtain ⟨node, hnode, hc⟩ := List.mem_filterMap.mp hcallee
    rw [Options.resolve, hget]
    exact .inl (((Node.parse_spelled hparse node hnode).isWord_of_callee? hc).isName htokens)
  | some symbol =>
    rw [Options.resolve, hget]
    exact .inr (List.mem_map.mpr ⟨_, Table.mem_entries_of_get? hget, rfl⟩)

end Symbols

/-! ## Lines of a listing -/

/-- An instruction stands on one line, if the symbol in it does. -/
theorem Instr.oneLine_text {instr : Instr} (hr : ∀ s ∈ instr.reference?, OneLine s)
    (ht : ∀ s ∈ instr.target?, OneLine s) : OneLine instr.text := by
  have hx : ∀ n, OneLine (xName n) := fun n => oneLine_append.mpr ⟨by decide, oneLine_nat n⟩
  have hw : ∀ n, OneLine (wName n) := fun n => oneLine_append.mpr ⟨by decide, oneLine_nat n⟩
  cases instr with
  | loadAddress dest symbol =>
    have hsymbol := hr symbol rfl
    simp only [text, oneLine_append, hx, hsymbol, and_true]
    decide
  | branchLink symbol => exact oneLine_append.mpr ⟨by decide, ht symbol rfl⟩
  | arith op dest left right =>
    have hop : OneLine (mnemonic op) := by cases op <;> decide
    simp only [text, oneLine_append, hw, hop, and_true, true_and]
    decide
  | _ =>
    simp only [text, oneLine_append, hx, hw, oneLine_int, and_true]
    decide

section Lines
variable {o : Options} {source : String} {c : Compilation} {program : Program}

theorem oneLine_initial (h : compile o source = .ok c) {e : String × Lower.Slot}
    (he : e ∈ c.lower.slots.entries) : OneLine e.2.initial := by
  obtain ⟨-, -, hp, hq, -⟩ := compile_stages h
  exact ((Lower.sound_ofTuple hp hq).1 e he).oneLine

theorem oneLine_data (h : compile o source = .ok c)
    (hprogram : Program.ofLower c.lower = .ok program) :
    ∀ line ∈ program.data, OneLine line.text := by
  have hlaid := laid_of_dataSection (Program.ofLower_eq_ok.mp hprogram).1
  intro line hline
  have hlabel : ∀ name, line.label? = some name → OneLine name := by
    intro name hname
    exact (isName_of_label h hprogram (List.mem_filterMap.mpr ⟨line, hline, hname⟩)).oneLine
  cases line with
  | align => decide
  | word name value =>
    have hvalue := oneLine_initial h (hlaid.mem_word.mp hline)
    exact oneLine_append.mpr ⟨oneLine_append.mpr ⟨hlabel name rfl, by decide⟩, hvalue⟩
  | ascii name literal =>
    have hliteral := oneLine_initial h (hlaid.mem_ascii.mp hline)
    exact oneLine_append.mpr ⟨oneLine_append.mpr ⟨hlabel name rfl, by decide⟩, hliteral⟩

theorem oneLine_code (h : compile o source = .ok c)
    (hsymbols : ∀ symbol ∈ o.intrinsics.values, OneLine symbol)
    (hprogram : Program.ofLower c.lower = .ok program) :
    ∀ instr ∈ program.code, OneLine instr.text := by
  intro instr hinstr
  refine Instr.oneLine_text (fun symbol hs => ?_) (fun symbol hs => ?_)
  · have href : symbol ∈ program.references := List.mem_filterMap.mpr ⟨instr, hinstr, hs⟩
    exact (isName_of_reference h hprogram href).oneLine
  · have htarget : symbol ∈ program.targets := List.mem_filterMap.mpr ⟨instr, hinstr, hs⟩
    exact (target_cases h hprogram htarget).elim IsName.oneLine (hsymbols symbol)

/-- **No line of a listing holds a line feed**, if none comes from the options. -/
theorem oneLine_lines (h : compile o source = .ok c) (hname : OneLine o.programName)
    (hsymbols : ∀ symbol ∈ o.intrinsics.values, OneLine symbol)
    (hprogram : Program.ofLower c.lower = .ok program) :
    ∀ line ∈ program.lines o, OneLine line := by
  have hindent : OneLine indent := by decide
  have hrule : OneLine (String.ofList (List.replicate 59 '─')) := by
    rw [OneLine, String.toList_ofList, List.mem_replicate]
    decide
  have hheader : ∀ line ∈ header o, OneLine line := by
    simp only [header, List.forall_mem_cons, oneLine_append, hrule, hname, and_true]
    decide
  have hdata := oneLine_data h hprogram
  have hcode := oneLine_code h hsymbols hprogram
  simp only [Program.lines, List.forall_mem_append, List.forall_mem_map, oneLine_append, hindent,
    true_and]
  exact ⟨⟨⟨⟨⟨⟨hheader, by decide⟩, hdata⟩, by decide⟩, hcode⟩, by decide⟩, by decide⟩

end Lines

/-! ## Reading a listing -/

/-- Reads indented lines up to an empty one, and leaves those behind it. -/
def readBlock {α : Type} (read : String → Option α) : List String → Option (List α × List String)
  | [] => none
  | line :: rest =>
    if line = "" then some ([], rest)
    else do
      let first ← read (String.ofList (line.toList.drop indent.toList.length))
      let (others, behind) ← readBlock read rest
      return (first :: others, behind)

theorem readBlock_map {α : Type} {read : String → Option α} {text : α → String} {content : List α}
    (h : ∀ a ∈ content, read (text a) = some a) (behind : List String) :
    readBlock read (content.map (fun a => indent ++ text a) ++ "" :: behind) =
      some (content, behind) := by
  induction content with
  | nil => rfl
  | cons a content ih =>
    obtain ⟨ha, hcontent⟩ := List.forall_mem_cons.mp h
    have hne : indent ++ text a ≠ "" := by simp [indent]
    have htext : String.ofList ((indent ++ text a).toList.drop indent.toList.length) = text a := by
      rw [String.toList_append, List.drop_left, String.ofList_toList]
    rw [List.map_cons, List.cons_append, readBlock, if_neg hne, htext, ha, ih hcontent]
    rfl

/-- Reads the two sections of a listing.  Five lines stand before the data, and three between the
empty line behind them and the code. -/
def Program.read (lines : List String) : Option Program := do
  let (data, behind) ← readBlock DataLine.read (lines.drop 5)
  let (code, _) ← readBlock Instr.read (behind.drop 3)
  return ⟨data, code⟩

/-- **A program is read back from its lines**, if there is no colon in its labels. -/
theorem Program.read_lines (o : Options) {p : Program} (h : ∀ name ∈ p.labels, ':' ∉ name.toList)
    (behind : List String) : Program.read (p.lines o ++ behind) = some p := by
  have hdata := DataLine.forall_read_text h
  have hcode : ∀ instr ∈ p.code, Instr.read instr.text = some instr :=
    fun instr _ => instr.read_text
  have hstart : (p.lines o ++ behind).drop 5 = p.data.map (fun line => indent ++ line.text) ++
      "" :: ([".section .text", ".global " ++ entryLabel, entryLabel ++ ":"] ++
        (p.code.map (fun instr => indent ++ instr.text) ++
          "" :: (exitSequence.map (indent ++ ·) ++ behind))) := by
    simp [Program.lines, header]
  rw [Program.read, hstart, readBlock_map hdata, Option.bind_eq_bind, Option.bind_some]
  simp only [List.cons_append, List.nil_append, List.drop_succ_cons, List.drop_zero,
    readBlock_map hcode]
  rfl

/-- The register program that a listing is made from. -/
def recover (listing : String) : Option Lower.Program :=
  Program.read (splitLines listing) >>= Program.toLower?

section Listing
variable {o : Options} {source : String} {c : Compilation} {program : Program}

/-- **The lines of the listing are those of the program.** -/
theorem splitLines_assembly (hname : OneLine o.programName)
    (hsymbols : ∀ symbol ∈ o.intrinsics.values, OneLine symbol) (h : compile o source = .ok c) :
    ∃ program, Program.ofLower c.lower = .ok program ∧
      splitLines c.assembly = program.lines o ++ [""] := by
  obtain ⟨-, -, -, -, hemit⟩ := compile_stages h
  obtain ⟨program, hprogram, htext⟩ := Outcome.map_eq_ok.mp hemit
  refine ⟨program, hprogram, ?_⟩
  rw [← htext]
  exact splitLines_unlines (oneLine_lines h hname hsymbols hprogram)

/-- **The register program is recovered from the listing.** -/
theorem recover_assembly (hname : OneLine o.programName)
    (hsymbols : ∀ symbol ∈ o.intrinsics.values, OneLine symbol) (h : compile o source = .ok c) :
    recover c.assembly = some c.lower := by
  obtain ⟨program, hprogram, hlines⟩ := splitLines_assembly hname hsymbols h
  have hlabels : ∀ name ∈ program.labels, ':' ∉ name.toList :=
    fun name hmem => (isName_of_label h hprogram hmem).colon_not_mem
  rw [recover, hlines, Program.read_lines o hlabels, Option.bind_eq_bind, Option.bind_some,
    toLower?_ofLower hprogram]

/-- The operand in the line of a string is one literal. -/
theorem literal_of_ascii (h : compile o source = .ok c)
    (hprogram : Program.ofLower c.lower = .ok program) {name literal : String}
    (hline : .ascii name literal ∈ program.data) :
    ∃ body, Quoted.IsBody body ∧
      literal = String.ofList (doubleQuote :: (body ++ [doubleQuote])) := by
  obtain ⟨-, -, hp, hq, -⟩ := compile_stages h
  have hentry := (laid_of_dataSection (Program.ofLower_eq_ok.mp hprogram).1).mem_ascii.mp hline
  cases (Lower.sound_ofTuple hp hq).1 _ hentry with
  | string s => exact ⟨Quoted.encode s.toList, Quoted.isBody_encode _, rfl⟩

end Listing

/-- **Nothing in a source breaks the lines of its listing.**  If no line feed comes from the
options, the listing of every source that is compiled falls into these lines: the heading, the data
section with one line for each of its entries, the text section with one line for each machine
instruction, and the end.  Each string is one literal on its own line.  From these lines the
register program is recovered, so sources with the same listing have the same register program. -/
theorem listing_unambiguous {o : Options} (hname : OneLine o.programName)
    (hsymbols : ∀ symbol ∈ o.intrinsics.values, OneLine symbol) {source : String} {c : Compilation}
    (h : compile o source = .ok c) :
    ∃ data code, dataSection c.lower.slots = .ok data ∧ codeOf c.lower.instrs = .ok code ∧
      (header o).length = 3 ∧
      splitLines c.assembly = header o ++ ["", ".section .data"] ++
        data.map (fun line => indent ++ line.text) ++
        ["", ".section .text", ".global _start", "_start:"] ++
        code.map (fun instr => indent ++ instr.text) ++
        ["", "    mov x0, #0", "    mov x8, #93", "    svc #0", ""] ∧
      (∀ name slot, (name, slot) ∈ c.lower.slots.entries → slot.type = .string →
        .ascii name slot.initial ∈ data) ∧
      (∀ name literal, .ascii name literal ∈ data → ∃ body, Quoted.IsBody body ∧
        literal = String.ofList (doubleQuote :: (body ++ [doubleQuote]))) ∧
      recover c.assembly = some c.lower ∧
      ∀ other d, compile o other = .ok d → d.assembly = c.assembly → d.lower = c.lower := by
  obtain ⟨program, hprogram, hlines⟩ := splitLines_assembly hname hsymbols h
  obtain ⟨hdata, hcode⟩ := Program.ofLower_eq_ok.mp hprogram
  have hrecover := recover_assembly hname hsymbols h
  refine ⟨program.data, program.code, hdata, hcode, rfl, ?_, ?_,
    fun name literal => literal_of_ascii h hprogram, hrecover, ?_⟩
  · rw [hlines, Program.lines]
    simp [indent, exitSequence, entryLabel]
  · rintro name ⟨type, initial⟩ hentry rfl
    exact (laid_of_dataSection hdata).mem_ascii.mpr hentry
  · intro other d hd hsame
    have hother := recover_assembly hname hsymbols hd
    rw [hsame, hrecover] at hother
    exact (Option.some.inj hother).symm

/-- A declaration whose string would end its literal and begin a line of its own. -/
def forgery : String := "s: String = \"\\\"\\nx: .word 1\";"

/-- The same declaration with less space. -/
def tightForgery : String := "s:String=\"\\\"\\nx: .word 1\";"

/-- The tokens of the declaration, with its type, its sign and its text in given columns. -/
def forgeryTokens (type equals text : Nat) : List Token :=
  [⟨.identifier, "s", ⟨1, 1⟩⟩, ⟨.colon, ":", ⟨1, 2⟩⟩, ⟨.identifier, "String", ⟨1, type⟩⟩,
    ⟨.assign, "=", ⟨1, equals⟩⟩, ⟨.stringLiteral, "\"\nx: .word 1", ⟨1, text⟩⟩,
    ⟨.semicolon, ";", ⟨1, text + 16⟩⟩, ⟨.endOfText, "", ⟨1, text + 17⟩⟩]

/-- The data section of the declaration is one line, and both sources have the same register
program. -/
theorem listing_unambiguous_forgery :
    OneLine ({} : Options).programName ∧
    (∀ symbol ∈ ({} : Options).intrinsics.values, OneLine symbol) ∧
    ∃ c d data, compile {} forgery = .ok c ∧ compile {} tightForgery = .ok d ∧
      dataSection c.lower.slots = .ok data ∧ data.length = 1 ∧
      "    s: .ascii \"\\\"\\nx: .word 1\"" ∈ splitLines c.assembly ∧
      recover c.assembly = some c.lower ∧ d.lower = c.lower := by
  have hname : OneLine ({} : Options).programName := by decide
  have hsymbols : ∀ symbol ∈ ({} : Options).intrinsics.values, OneLine symbol := by decide
  have htokens : tokenize forgery = .ok (forgeryTokens 4 11 13) := by decide +kernel
  have htight : tokenize tightForgery = .ok (forgeryTokens 3 9 10) := by decide +kernel
  obtain ⟨c, d, hc, hd, hsame, hslots⟩ : ∃ c d, compile {} forgery = .ok c ∧
      compile {} tightForgery = .ok d ∧ d.assembly = c.assembly ∧
      dataSection c.lower.slots = .ok [.ascii "s" "\"\\\"\\nx: .word 1\""] := by
    rw [compile, htokens, compile, htight]
    exact ⟨_, _, rfl, rfl, rfl, rfl⟩
  obtain ⟨data, code, hdata, -, -, hlines, -, -, hrecover, hunique⟩ :=
    listing_unambiguous hname hsymbols hc
  cases hdata.symm.trans hslots
  refine ⟨hname, hsymbols, c, d, _, hc, hd, hdata, rfl, ?_, hrecover, hunique _ d hd hsame⟩
  rw [hlines]
  simp [DataLine.text, indent]

end Assembly
end Risclet
