import Risclet.Proofs.Lower.Progress
import Risclet.Proofs.Node.Origin
import Risclet.Proofs.Strictness

/-! # What can go wrong with a source text

A text is compiled, or it is rejected at one of its own positions.  Of the classes of errors one is
left out: an operator that is none of the four cannot be written down.  Defects of the later stages
cannot arise either, and of the parser's there is one, a numeral that is too long to be read.  A
text with halves of surrogate pairs can moreover be compiled up to its listing and have none
(`compile_rejects_in_text`).

Scanning and parsing are treated in `tokenize_sited` and `Node.parse_traced`.  Here follow the
checks of the statements: on trees from the parser, each rejects at a position of the tree
(`Blamed`).
-/
namespace Risclet
namespace Tuple

variable {α β : Type} {P : Pos → Prop}

/-- The classes of errors that the checks of statements give rise to. -/
def checkKinds : List ErrorKind := [.statement, .item, .dataType, .undeclared, .reserved]

/-- If a check fails, it is with an error of one of these classes at a position with the property
`P`. -/
def Blamed (P : Pos → Prop) (x : Except Error α) : Prop :=
  ∀ e, x = .error e → e.fault.kind ∈ checkKinds ∧ P e.pos

theorem Blamed.ok (a : α) : Blamed P (.ok a : Except Error α) := by
  rintro e ⟨⟩

theorem Blamed.error {fault : Fault} {pos : Pos} (hk : fault.kind ∈ checkKinds) (hp : P pos) :
    Blamed P (.error ⟨fault, pos⟩ : Except Error α) := by
  rintro e ⟨⟩
  exact ⟨hk, hp⟩

theorem Blamed.bind {x : Except Error α} {f : α → Except Error β} (h : Blamed P x)
    (hf : ∀ a, Blamed P (f a)) : Blamed P (x >>= f) := by
  cases x with
  | error e =>
    rintro _ ⟨⟩
    exact h e rfl
  | ok a => exact hf a

theorem Blamed.map {x : Except Error α} (h : Blamed P x) (f : α → β) : Blamed P (x.map f) := by
  intro e he
  exact h e (Outcome.map_eq_error.mp he)

section Checks
variable (o : Options) (vars : Table DataType) {node : Node} {pos : Pos}

theorem checkDeclared_blamed (name : String) (hp : P pos) :
    Blamed P (checkDeclared o vars name pos) := by
  unfold checkDeclared
  split
  · exact .error (by simp [Fault.kind, checkKinds]) hp
  · exact .ok ()

theorem checkLiteral_blamed (name : String) (declared : Option DataType) (value : Item)
    (first : Bool) (hp : P pos) : Blamed P (checkLiteral name declared value first pos) := by
  unfold checkLiteral
  split
  · exact .ok ()
  · split
    · exact .error (by simp [Fault.kind, checkKinds]) hp
    · split
      · exact .ok ()
      · split
        · exact .ok ()
        · exact .error (by simp [Fault.kind, checkKinds]) hp

theorem toItem_blamed (h : node.Placed P) : Blamed P (toItem o vars node) := by
  have hp := h.pos
  unfold toItem
  split
  · split
    · exact .ok _
    · exact .error (by simp [Fault.kind, checkKinds]) hp
  · exact .ok _
  · exact (checkDeclared_blamed o vars _ hp).map _
  · exact .error (by simp [Fault.kind, checkKinds]) hp

theorem toOperand_blamed (h : node.Placed P) : Blamed P (toOperand o vars node) := by
  rw [toOperand_eq_bind]
  refine (toItem_blamed o vars h).bind ?_
  intro item
  split
  · exact .error (by simp [Fault.kind, checkKinds]) h.pos
  · exact .ok item

theorem flattenValue_blamed (h : node.Placed P) : Blamed P (flattenValue o vars node) := by
  by_cases hb : ∃ op left right place, node = .binary op left right place
  · obtain ⟨op, left, right, place, rfl⟩ := hb
    cases h with
    | binary hl hr _ =>
      refine (toOperand_blamed o vars hl).bind fun l => ?_
      exact (toOperand_blamed o vars hr).bind fun r => .ok _
  · rw [flattenValue.eq_2 o vars node fun op left right place he => hb ⟨op, left, right, place, he⟩]
    exact (toItem_blamed o vars h).map _

theorem flattenInitialiser_blamed (name : String) (type : DataType) (hp : P pos)
    (h : node.Placed P) : Blamed P (flattenInitialiser o vars name type pos node) := by
  unfold flattenInitialiser
  split
  · exact .ok _
  · refine (flattenValue_blamed o vars h).bind fun result => ?_
    exact (checkLiteral_blamed _ _ _ _ hp).bind fun _ => .ok _

theorem outcome_decl_blamed (name typeName : String) (hp : P pos)
    (h : ∀ type, Blamed P (flattenInitialiser o vars name type pos node)) :
    Blamed P (outcome o vars (.decl name typeName node pos)) := by
  have htype : Blamed P (declaredType typeName pos) := by
    unfold declaredType
    split
    · exact .ok _
    · exact .error (by simp [Fault.kind, checkKinds]) hp
  rw [outcome_decl]
  refine htype.bind fun type => ?_
  split
  · exact .error (by simp [Fault.kind, checkKinds]) hp
  · exact (h type).bind fun _ => .ok _

theorem flattenAssignment_blamed (name : String) (hp : P pos) (h : node.Placed P) :
    Blamed P (flattenAssignment o vars name node pos) := by
  refine (checkDeclared_blamed o vars _ hp).bind fun _ => ?_
  refine (flattenValue_blamed o vars h).bind fun result => ?_
  exact (checkLiteral_blamed _ _ _ _ hp).bind fun _ => .ok _

theorem flattenCall_blamed (name : String) {args : List Node} (hp : P pos)
    (h : ∀ arg ∈ args, arg.Placed P) : Blamed P (flattenCall o vars name args pos) := by
  rcases args with _ | ⟨arg, _ | ⟨other, rest⟩⟩
  · exact .error (by simp [Fault.kind, checkKinds]) hp
  · exact (toOperand_blamed o vars (h arg List.mem_cons_self)).map _
  · exact .error (by simp [Fault.kind, checkKinds]) hp

/-- **A statement is blamed at its own position or at that of a part of it.** -/
theorem outcome_blamed (h : node.Placed P) : Blamed P (outcome o vars node) := by
  cases h with
  | declaration hp => exact outcome_decl_blamed o vars _ _ hp fun _ => .ok _
  | initialisation hv hp =>
    exact outcome_decl_blamed o vars _ _ hp fun type =>
      flattenInitialiser_blamed o vars _ type hp hv
  | assign hv hp => exact (flattenAssignment_blamed o vars _ hp hv).map _
  | call hargs hp => exact (flattenCall_blamed o vars _ hp hargs).map _
  | int hp | str hp | ident hp | binary _ _ hp | expr _ hp =>
    exact .error (by simp [Fault.kind, checkKinds]) hp

theorem flattenAll_blamed {nodes : List Node} (keep : List Instr → Table DataType → β)
    (h : ∀ node ∈ nodes, node.Placed P) :
    Blamed P ((flattenAll o vars nodes).2.map
      (fun instrs => keep instrs (flattenAll o vars nodes).1)) := by
  induction nodes generalizing vars keep with
  | nil => exact .ok _
  | cons node nodes ih =>
    obtain ⟨hnode, hnodes⟩ := List.forall_mem_cons.mp h
    rw [flattenAll_cons_map]
    exact (outcome_blamed o vars hnode).bind fun result =>
      ih result.2 (fun instrs => keep (result.1 ++ instrs)) hnodes

theorem ofStatements_blamed {nodes : List Node} (h : ∀ node ∈ nodes, node.Placed P) :
    Blamed P (Program.ofStatements o nodes) :=
  flattenAll_blamed o Table.empty Program.mk h

end Checks
end Tuple

/-! ## All stages -/

/-- Statements from the parser are compiled, or one of the checks of statements fails. -/
theorem generate_cases (o : Options) {P : Pos → Prop} {nodes : List Node}
    (h : ∀ node ∈ nodes, node.Placed P) :
    (∃ g, generate o nodes = .ok g) ∨
      ∃ e, generate o nodes = .error (.rejected e) ∧ e.fault.kind ∈ Tuple.checkKinds ∧ P e.pos := by
  cases hp : Tuple.Program.ofStatements o nodes with
  | error e => exact .inr ⟨e, generate_of_rejected hp, Tuple.ofStatements_blamed o h e hp⟩
  | ok p =>
    refine .inl ?_
    rcases Lower.ofTuple_flattened hp with ⟨q, hq, -⟩ | ⟨text, hmem, -⟩
    · obtain ⟨text, htext⟩ := Lower.exists_emit hp hq
      exact ⟨⟨p, q, text⟩, generate_eq_ok.mpr ⟨hp, hq, htext⟩⟩
    · obtain ⟨node, hnode, hop⟩ := Node.mem_operatorsAll.mp hmem
      exact absurd hop ((h node hnode).not_foreign text)

/-- An error as a source text gives rise to: of one of these classes, and at a position of the
text. -/
structure Error.Within (source : String) (e : Error) : Prop where
  kind : e.fault.kind ∈
    [.lexical, .grammar, .statement, .item, .dataType, .undeclared, .reserved]
  pos : e.pos.InText source.toList

/-- No numeral of a source text is too long to be read. -/
def ShortNumerals (source : String) : Prop :=
  ∀ tokens, tokenize source = .ok tokens →
    ∀ t ∈ tokens, t.kind = .intLiteral → t.lexeme.length ≤ Text.Numeral.maxDigits

/-- The outcomes of a compilation. -/
theorem compile_cases (o : Options) (source : String) :
    (∃ c, compile o source = .ok c) ∨
      (∃ e, compile o source = .error (.rejected e) ∧ e.Within source) ∨
      ∃ tokens t, tokenize source = .ok tokens ∧ t ∈ tokens ∧ t.kind = .intLiteral ∧
        Text.Numeral.maxDigits < t.lexeme.length ∧
        compile o source = .error (.defect (.numeralTooLong t.lexeme.length)) := by
  unfold compile
  cases htokens : tokenize source with
  | error f =>
    obtain ⟨e, rfl, hk, hp⟩ := tokenize_rejected htokens
    exact .inr (.inl ⟨e, rfl, by simp [hk], hp.inText⟩)
  | ok tokens =>
    rw [Outcome.bind_ok]
    have htraced := Node.parse_traced (tokenize_sited htokens)
    generalize Node.parse tokens = parsed at htraced
    cases htraced with
    | rejected hk hp => exact .inr (.inl ⟨_, rfl, by simp [hk], hp.inText⟩)
    | tooLong ht hk hl => exact .inr (.inr ⟨tokens, _, rfl, ht, hk, hl, rfl⟩)
    | @ok nodes hnodes =>
      rw [Outcome.bind_ok]
      rcases generate_cases o hnodes with ⟨g, hg⟩ | ⟨e, he, hk, hp⟩
      · exact .inl ⟨_, by rw [hg]; rfl⟩
      · refine .inr (.inl ⟨e, by rw [he]; rfl, ?_, hp.inText⟩)
        exact List.mem_cons_of_mem _ (List.mem_cons_of_mem _ hk)

/-! ## Texts with halves of surrogate pairs -/

/-- A half is rejected where a token should begin, as any character is that begins none. -/
theorem scan_half {h : Text.Halves} {c : Char} {n : Nat} (hc : h.half? c = some n) (pos : Pos)
    (cs : List Char) : scan pos (c :: cs) = .error (.fault (.unexpectedCharacter c) pos) := by
  have hinert := h.inert c n hc
  simp only [Text.isInert, Bool.and_eq_true, decide_eq_true_eq, Bool.not_eq_true'] at hinert
  obtain ⟨⟨⟨⟨hascii, hblank⟩, hdigit⟩, -⟩, -⟩ := hinert
  have hne : ∀ d : Char, d.toNat < 0x80 → c ≠ d := by
    rintro d hd rfl
    omega
  have hstart : Text.isNameStart c = false := by
    have hle : ∀ d : Char, d.toNat < 0x80 → ¬ c ≤ d := by
      intro d hd hcd
      have : c.toNat ≤ d.toNat := hcd
      omega
    simp [Text.isNameStart, hle 'Z' (by decide), hle 'z' (by decide), hne '_' (by decide)]
  have hsymbol : TokenKind.ofSymbol? c = none := by
    rw [TokenKind.ofSymbol?.eq_def]
    split <;> first | rfl | exact absurd hascii (by decide)
  have hnone : nextPiece? (c :: cs) = none := by
    simp [nextPiece?, hblank, hdigit, hstart, hsymbol, hne '/' (by decide),
      hne Text.doubleQuote (by decide)]
  rw [scan]
  split
  · rw [noPieceFault, if_neg (hne Text.doubleQuote (by decide))]
  · next hsome =>
    rw [hnone] at hsome
    cases hsome

/-- **A text with halves is compiled like any other up to its listing**, and there the first half in
the literals of its variables is reported. -/
theorem compileIn_cases (h : Text.Halves) (o : Options) (source : String) :
    (∃ f, compile o source = .error f ∧ compileIn h o source = .error (.failure f)) ∨
      ∃ c, compile o source = .ok c ∧
        ((compileIn h o source = .ok c ∧ ∀ fault, ¬ Assembly.FirstHalf h c.lower.slots fault) ∨
          ∃ fault, compileIn h o source = .error (.unencodable fault) ∧
            ∀ other, Assembly.FirstHalf h c.lower.slots other ↔ other = fault) := by
  unfold compile compileIn
  cases htokens : tokenize source with
  | error f => exact .inl ⟨f, rfl, rfl⟩
  | ok tokens =>
    cases hparse : Node.parse tokens with
    | error f => exact .inl ⟨f, by simp [hparse], by simp [hparse]⟩
    | ok statements =>
      simp only [Outcome.mapError_ok, Outcome.bind_ok, hparse, generate, generateIn]
      cases hp : Tuple.Program.ofStatements o statements with
      | error e => exact .inl ⟨.rejected e, rfl, rfl⟩
      | ok p =>
        cases hq : Lower.Program.ofTuple o p with
        | error f => exact .inl ⟨f, by simp [hq], by simp [hq]⟩
        | ok q =>
          obtain ⟨htame, hsound, -⟩ := Lower.tame_ofTuple hp hq
          have hplaceable : ∀ e ∈ q.slots.entries, Assembly.Placeable e.2 :=
            fun e he => (hsound e he).placeable
          rcases Assembly.emitIn_cases (h := h) (o := o) (fun i hi => (htame i hi).encodable)
            hplaceable with ⟨text, hin, hemit, hnone⟩ | ⟨fault, hin, hf⟩
          · refine .inr ⟨⟨⟨p, q, text⟩, tokens, statements⟩, ?_, .inl ⟨?_, hnone⟩⟩
            · simp [hq, hemit]
            · simp [hq, hin]
          · obtain ⟨text, hemit⟩ := Lower.exists_emit hp hq
            have hfirst : ∀ other, Assembly.FirstHalf h q.slots other ↔ other = fault :=
              fun other => ⟨fun ho => hf.unique ho hplaceable, fun he => he ▸ hf⟩
            refine .inr ⟨⟨⟨p, q, text⟩, tokens, statements⟩, ?_, .inr ⟨fault, ?_, hfirst⟩⟩
            · simp [hq, hemit]
            · simp [hq, hin]

/-- **Source texts are rejected at their own positions.**  A text without numerals of more than 4300
digits is compiled, or it is rejected with an error of one of seven classes, at a position in one of
its lines or right behind the end of one.  Any other text may besides fail at such a numeral, and in
no other way.

A text with halves of surrogate pairs is compiled or fails as it would with other characters in
their places; but it also fails, at no position, if it is compiled and a string variable begins with
a text that holds a half. -/
theorem compile_rejects_in_text (o : Options) (source : String) :
    (ShortNumerals source → (∃ c, compile o source = .ok c) ∨
      ∃ e, compile o source = .error (.rejected e) ∧ e.Within source) ∧
    (∀ f, compile o source = .error f → (∃ e, f = .rejected e ∧ e.Within source) ∨
      ∃ tokens t, tokenize source = .ok tokens ∧ t ∈ tokens ∧ t.kind = .intLiteral ∧
        Text.Numeral.maxDigits < t.lexeme.length ∧
        f = .defect (.numeralTooLong t.lexeme.length)) ∧
    ∀ h : Text.Halves,
      (∀ c, compileIn h o source = .ok c ↔
        compile o source = .ok c ∧ ∀ fault, ¬ Assembly.FirstHalf h c.lower.slots fault) ∧
      ∀ f, compileIn h o source = .error f ↔
        (∃ f', f = .failure f' ∧ compile o source = .error f') ∨
        ∃ c fault, f = .unencodable fault ∧ compile o source = .ok c ∧
          Assembly.FirstHalf h c.lower.slots fault := by
  refine ⟨?_, ?_, fun h => ?_⟩
  · intro hshort
    rcases compile_cases o source with hc | he | ⟨tokens, t, hs, ht, hk, hl, -⟩
    · exact .inl hc
    · exact .inr he
    · have := hshort tokens hs t ht hk
      omega
  · intro f hf
    rcases compile_cases o source with ⟨c, hc⟩ | ⟨e, he, hwithin⟩ | ⟨tokens, t, hs, ht, hk, hl, hf'⟩
    · rw [hc] at hf
      cases hf
    · exact .inl ⟨e, Except.error.inj (hf.symm.trans he), hwithin⟩
    · exact .inr ⟨tokens, t, hs, ht, hk, hl, Except.error.inj (hf.symm.trans hf')⟩
  · rcases compileIn_cases h o source with ⟨f, hf, hin⟩ |
      ⟨c, hc, ⟨hin, hnone⟩ | ⟨fault, hin, hfirst⟩⟩
    · simp [hf, hin, eq_comm]
    · simp [hc, hin, hnone]
    · simp [hc, hin, hfirst, eq_comm]

/-- A text whose last statement is not ended. -/
def unfinished : String := "x : Int32 = 12;\nOutput(x)"

/-- It is rejected right behind the end of its last line. -/
theorem compile_rejects_in_text_unfinished :
    ShortNumerals unfinished ∧
      compile {} unfinished = .error (.rejected ⟨.missingSemicolon, ⟨2, 10⟩⟩) ∧
      Error.Within unfinished ⟨.missingSemicolon, ⟨2, 10⟩⟩ := by
  have htokens : tokenize unfinished = .ok
      [⟨.identifier, "x", ⟨1, 1⟩⟩, ⟨.colon, ":", ⟨1, 3⟩⟩, ⟨.identifier, "Int32", ⟨1, 5⟩⟩,
        ⟨.assign, "=", ⟨1, 11⟩⟩, ⟨.intLiteral, "12", ⟨1, 13⟩⟩, ⟨.semicolon, ";", ⟨1, 15⟩⟩,
        ⟨.identifier, "Output", ⟨2, 1⟩⟩, ⟨.leftParen, "(", ⟨2, 7⟩⟩, ⟨.identifier, "x", ⟨2, 8⟩⟩,
        ⟨.rightParen, ")", ⟨2, 9⟩⟩, ⟨.endOfText, "", ⟨2, 10⟩⟩] := by
    cbv
  have hshort : ShortNumerals unfinished := by
    intro tokens h
    obtain rfl := Except.ok.inj (htokens.symm.trans h)
    decide
  have hrejected : compile {} unfinished = .error (.rejected ⟨.missingSemicolon, ⟨2, 10⟩⟩) := by
    rw [compile, htokens]
    rfl
  refine ⟨hshort, hrejected, ?_⟩
  rcases (compile_rejects_in_text {} unfinished).1 hshort with ⟨c, hc⟩ | ⟨e, he, hwithin⟩
  · rw [hrejected] at hc
    cases hc
  · rw [hrejected] at he
    cases he
    exact hwithin

/-- A text whose only string is a half of a surrogate pair. -/
def lonely : String := "s: String = \"\uE000\";"

/-- No numeral of it is too long; still it is neither compiled nor rejected at a position. -/
theorem lonely_rejected_nowhere :
    ShortNumerals lonely ∧
      compileIn .firstOfAll {} lonely = .error (.unencodable ⟨0, 1, 0xD800⟩) := by
  have htokens : tokenize lonely = .ok
      [⟨.identifier, "s", ⟨1, 1⟩⟩, ⟨.colon, ":", ⟨1, 2⟩⟩, ⟨.identifier, "String", ⟨1, 4⟩⟩,
        ⟨.assign, "=", ⟨1, 11⟩⟩, ⟨.stringLiteral, "\uE000", ⟨1, 13⟩⟩, ⟨.semicolon, ";", ⟨1, 16⟩⟩,
        ⟨.endOfText, "", ⟨1, 17⟩⟩] := by
    decide +kernel
  refine ⟨?_, ?_⟩
  · intro tokens h
    obtain rfl := Except.ok.inj (htokens.symm.trans h)
    decide
  · rw [compileIn, htokens]
    rfl

end Risclet
