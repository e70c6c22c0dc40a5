import Risclet.Proofs.Assembly.Listing

/-! # String literals from the source to the data section

A string literal is read when the source is scanned, and what it stands for is written as a literal
again for the data section.  The two notations are one code, read and written by different means
(`Quoted.encode`, `unescape`), and no text is changed by it: what is written is read as it was, and
what is read is written as it stood in the source, but for tabs.

So the literal in the line of a string variable stands for the text for which the literal in the
source does, that is, the one with which the variable is first declared
(`ascii_of_firstDeclaration?`).

Main statement: `literals_faithful`.
-/
namespace Risclet

open Text

/-- What stands between the quotes of a literal. -/
def Text.Quoted.inside (literal : String) : List Char :=
  (literal.toList.drop 1).dropLast

/-- What was quoted is read back. -/
theorem unescape_quote (s : String) (pos : Pos) :
    unescape (Quoted.inside (Quoted.quote s)) pos = .ok s := by
  rw [Quoted.inside, Quoted.drop_dropLast_quote, unescape_of_decodes (Quoted.decodes_encode _),
    String.ofList_toList]

/-- **The body of a string is read, or it holds a pair that is no escape.**  What is read is quoted
as that body, with an escape for every tab. -/
theorem unescape_cases {body : List Char} (h : Quoted.IsBody body) (pos : Pos) :
    (∃ s, unescape body pos = .ok s ∧ ¬ Quoted.HasUnknownPair body ∧
        Quoted.quote s = String.ofList
          (doubleQuote :: (Quoted.replaceChar '\t' ['\\', 't'] body ++ [doubleQuote]))) ∨
      ∃ e, unescape body pos = .error (.rejected e) ∧ e.fault.kind = .lexical ∧
        Quoted.HasUnknownPair body := by
  rcases h.decode_cases with ⟨value, -, hd, hknown⟩ | ⟨offset, c, he, hunknown⟩
  · refine .inl ⟨_, unescape_of_decodes hd pos, hknown, ?_⟩
    rw [Quoted.quote, String.toList_ofList, h.encode_eq hd]
  · refine .inr ⟨⟨.unknownEscape c, pos.right (1 + offset)⟩, ?_, rfl, hunknown⟩
    rw [unescape, he]
    rfl

/-! ## Strings in the source -/

/-- A string begins at a position of the source, and `body` stands between its quotes. -/
def StringAt (source : String) (pos : Pos) (body : List Char) : Prop :=
  ∃ front back, source.toList = Piece.texts (front ++ .string body :: back) ∧
    Cuts (front ++ .string body :: back) [] ∧ pos = .behind (Piece.texts front)

/-- A string token is a string of the source. -/
theorem stringAt_of_tokenize {source : String} {tokens : List Token}
    (h : tokenize source = .ok tokens) {s : String} {pos : Pos}
    (ht : ⟨.stringLiteral, s, pos⟩ ∈ tokens) :
    ∃ body, StringAt source pos body ∧ Quoted.Decodes body s.toList := by
  obtain ⟨front, piece, back, hs, hcuts, hd, hpos⟩ := exists_piece_of_tokenize h ht (by simp)
  have hcut := hcuts.cut
  generalize hkind : TokenKind.stringLiteral = kind at hd
  cases hd with
  | @string body value hdec =>
    refine ⟨body, ⟨front, back, hs, hcuts, hpos⟩, ?_⟩
    show Quoted.Decodes body (String.ofList value).toList
    rwa [String.toList_ofList]
  | number => cases hkind
  | name => cases hkind
  | symbol kind c =>
    cases hcut with
    | symbol hk _ => exact absurd hkind (TokenKind.ne_of_ofSymbol? hk).2

/-- The text with which a string variable begins, by the initialiser of its first declaration: the
one that a string of the source stands for, or none. -/
inductive Begins (source : String) : Node → String → Prop where
  | literal {s : String} {pos : Pos} {body : List Char} :
      StringAt source pos body → Quoted.Decodes body s.toList → Begins source (.str s pos) s
  | empty {value : Node} : value.literalText? = none → Begins source value ""

/-! ## Strings in the data section -/

/-- No numeral is a literal of a text. -/
theorem quote_ne_toString (s : String) (v : Int) : Quoted.quote s ≠ toString v := by
  intro h
  have hquote : doubleQuote ∈ (toString v).toList := by
    rw [← h]
    simp [Quoted.quote]
  rcases mem_toString_int hquote with hd | hd
  · exact absurd hd (by decide)
  · exact absurd hd (by decide)

section Data
variable {o : Options} {source name : String} {c : Compilation} {value : Node}

/-- **The literal of a string variable stands for the text of the literal in the source.** -/
theorem ascii_of_firstDeclaration? (h : compile o source = .ok c) {data : List Assembly.DataLine}
    (hdata : Assembly.dataSection c.lower.slots = .ok data)
    (hfirst : Node.firstDeclaration? name c.statements = some ("String", value)) :
    ∃ s, Begins source value s ∧
      ∀ literal, .ascii name literal ∈ data ↔ literal = Quoted.quote s := by
  obtain ⟨htokens, hparse, hp, hq, -⟩ := compile_stages h
  obtain ⟨type, htype, hslot⟩ := Lower.slot_of_firstDeclaration? hp hq hfirst
  obtain rfl : .string = type := Option.some.inj htype
  have hnodup := Lower.nodup_keys_ofTuple hq ((Tuple.ofStatements_eq_ok.mp hp).nodup_keys .nil)
  have hline : ∀ literal, .ascii name literal ∈ data ↔
      literal = Lower.initialText .string value := by
    intro literal
    rw [(Assembly.laid_of_dataSection hdata).mem_ascii]
    constructor
    · intro hmem
      have hget := Table.get?_of_mem_entries hnodup hmem
      rw [hslot] at hget
      cases hget
      rfl
    · rintro rfl
      exact Table.mem_entries_of_get? hslot
  obtain ⟨pos, hdecl⟩ := Node.mem_of_firstDeclaration? hfirst
  cases value with
  | str s place =>
    have hspelled := Node.parse_spelled hparse _ hdecl
    cases hspelled with
    | decl _ _ hvalue =>
    cases hvalue with
    | str ht =>
      obtain ⟨body, hat, hdec⟩ := stringAt_of_tokenize htokens ht
      exact ⟨s, .literal hat hdec, hline⟩
  | int v place =>
    -- A slot for a string holds the literal of a text, and an integer is none.
    have hsound := (Lower.sound_ofTuple hp hq).1 _ (Table.mem_entries_of_get? hslot)
    have hinitial : Lower.initialText .string (.int v place) = toString v := rfl
    rw [hinitial] at hsound
    generalize htext : toString v = text at hsound
    cases hsound with
    | string s => exact absurd htext.symm (quote_ne_toString s v)
  | _ => exact ⟨"", .empty rfl, hline⟩

/-- What has a literal in the data section is first declared as a string. -/
theorem firstDeclaration?_of_ascii (h : compile o source = .ok c) {data : List Assembly.DataLine}
    (hdata : Assembly.dataSection c.lower.slots = .ok data) {literal : String}
    (hline : .ascii name literal ∈ data) :
    ∃ value, Node.firstDeclaration? name c.statements = some ("String", value) := by
  obtain ⟨-, -, hp, hq, -⟩ := compile_stages h
  have hentry := (Assembly.laid_of_dataSection hdata).mem_ascii.mp hline
  have hkey : name ∈ Node.declaredNames c.statements := by
    rw [← Lower.keys_ofTuple hp hq]
    exact List.mem_map_of_mem hentry
  obtain ⟨⟨typeName, value⟩, hfirst⟩ := Option.ne_none_iff_exists'.mp
    (fun hnone => Node.firstDeclaration?_eq_none.mp hnone hkey)
  obtain ⟨type, htype, hslot⟩ := Lower.slot_of_firstDeclaration? hp hq hfirst
  have hnodup := Lower.nodup_keys_ofTuple hq ((Tuple.ofStatements_eq_ok.mp hp).nodup_keys .nil)
  have hget := Table.get?_of_mem_entries hnodup hentry
  rw [hslot] at hget
  cases hget
  obtain rfl : "String" = typeName := DataType.name_of_ofName? htype
  exact ⟨value, hfirst⟩

end Data

/-- **Literals are faithful.**  Quoting is four replacements, one after the other, and what is
quoted is read back, wherever it stands.  The body of a string is read, and then it is what is read
in quotes but for an escape in the place of every tab; or it is rejected by scanning, and this
exactly if it holds a pair that is no escape.  So every literal in the data section stands for the
text that the literal of its variable's first declaration in the source stands for, and every string
variable has one.  The lines of the section are read back from their texts, the literals with
them. -/
theorem literals_faithful :
    (∀ s, Quoted.quote s =
        String.ofList (doubleQuote :: (Quoted.passes s.toList ++ [doubleQuote]))) ∧
      (∀ s pos, unescape (Quoted.inside (Quoted.quote s)) pos = .ok s) ∧
      (∀ body pos, Quoted.IsBody body →
        (∃ s, unescape body pos = .ok s ∧ ¬ Quoted.HasUnknownPair body ∧
            Quoted.quote s = String.ofList
              (doubleQuote :: (Quoted.replaceChar '\t' ['\\', 't'] body ++ [doubleQuote]))) ∨
          ∃ e, unescape body pos = .error (.rejected e) ∧ e.fault.kind = .lexical ∧
            Quoted.HasUnknownPair body) ∧
      ∀ o source c, compile o source = .ok c →
        ∃ data, Assembly.dataSection c.lower.slots = .ok data ∧
          (∀ line ∈ data, Assembly.DataLine.read line.text = some line) ∧
          (∀ name literal, .ascii name literal ∈ data →
            ∃ value s, Node.firstDeclaration? name c.statements = some ("String", value) ∧
              Begins source value s ∧ ∀ pos, unescape (Quoted.inside literal) pos = .ok s) ∧
          ∀ name value, Node.firstDeclaration? name c.statements = some ("String", value) →
            ∃! literal, .ascii name literal ∈ data := by
  refine ⟨fun s => ?_, unescape_quote, fun body pos h => unescape_cases h pos, ?_⟩
  · rw [Quoted.quote, Quoted.encode_eq_passes]
  · intro o source c h
    obtain ⟨-, -, -, -, hemit⟩ := compile_stages h
    obtain ⟨program, hprogram, -⟩ := Outcome.map_eq_ok.mp hemit
    obtain ⟨hdata, -⟩ := Assembly.Program.ofLower_eq_ok.mp hprogram
    have hnames : ∀ name ∈ program.labels, ':' ∉ name.toList :=
      fun name hmem => (Assembly.isName_of_label h hprogram hmem).colon_not_mem
    refine ⟨program.data, hdata, Assembly.DataLine.forall_read_text hnames,
      fun name literal hmem => ?_, fun name value hfirst => ?_⟩
    · obtain ⟨value, hfirst⟩ := firstDeclaration?_of_ascii h hdata hmem
      obtain ⟨s, hbegins, hline⟩ := ascii_of_firstDeclaration? h hdata hfirst
      obtain rfl := (hline literal).mp hmem
      exact ⟨value, s, hfirst, hbegins, unescape_quote s⟩
    · obtain ⟨s, -, hline⟩ := ascii_of_firstDeclaration? h hdata hfirst
      exact ⟨Quoted.quote s, (hline _).mpr rfl, fun literal hmem => (hline literal).mp hmem⟩

/-- The body of a string with an escape for a quote, a tab, and an escape for a backslash. -/
def rowBody : List Char := ['a', '\\', '"', '\t', '\\', '\\', 'n']

/-- A declaration with this string. -/
def rowSource : String := "s: String = \"a\\\"\t\\\\n\";"

/-- The tokens of the declaration. -/
def rowTokens : List Token :=
  [⟨.identifier, "s", ⟨1, 1⟩⟩, ⟨.colon, ":", ⟨1, 2⟩⟩, ⟨.identifier, "String", ⟨1, 4⟩⟩,
    ⟨.assign, "=", ⟨1, 11⟩⟩, ⟨.stringLiteral, "a\"\t\\n", ⟨1, 13⟩⟩, ⟨.semicolon, ";", ⟨1, 22⟩⟩,
    ⟨.endOfText, "", ⟨1, 23⟩⟩]

/-- The tab is written as an escape in the data section, and no other character is changed. -/
theorem literals_faithful_row :
    Quoted.IsBody rowBody ∧
      (∃ s, unescape rowBody Pos.start = .ok s ∧ ¬ Quoted.HasUnknownPair rowBody ∧
        Quoted.quote s = "\"a\\\"\\t\\\\n\"") ∧
      ∃ c data literal, compile {} rowSource = .ok c ∧
        Assembly.dataSection c.lower.slots = .ok data ∧ .ascii "s" literal ∈ data ∧
        ∀ pos, unescape (Quoted.inside literal) pos = .ok "a\"\t\\n" := by
  obtain ⟨-, -, hcodec, hsection⟩ := literals_faithful
  have hbody : Quoted.IsBody rowBody :=
    .plain (by decide) (by decide) (by decide) (.pair (by decide)
      (.plain (by decide) (by decide) (by decide) (.pair (by decide)
        (.plain (by decide) (by decide) (by decide) .nil))))
  have hread : unescape rowBody Pos.start = .ok "a\"\t\\n" := rfl
  refine ⟨hbody, ?_, ?_⟩
  · rcases hcodec rowBody Pos.start hbody with hs | ⟨e, he, -⟩
    · exact hs
    · cases hread.symm.trans he
  · have htokens : tokenize rowSource = .ok rowTokens := by decide +kernel
    obtain ⟨c, hc, hfirst⟩ : ∃ c, compile {} rowSource = .ok c ∧
        Node.firstDeclaration? "s" c.statements =
          some ("String", .str "a\"\t\\n" ⟨1, 13⟩) := by
      rw [compile, htokens]
      exact ⟨_, rfl, rfl⟩
    obtain ⟨data, hdata, -, hlines, hvariables⟩ := hsection {} rowSource c hc
    obtain ⟨literal, hmem, -⟩ := hvariables "s" _ hfirst
    obtain ⟨value, s, hvalue, hbegins, hdecoded⟩ := hlines "s" literal hmem
    cases hfirst.symm.trans hvalue
    cases hbegins with
    | literal => exact ⟨c, data, literal, hc, hdata, hmem, hdecoded⟩
    | empty hnone => cases hnone

end Risclet
