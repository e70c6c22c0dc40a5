import Risclet.Node.Parse
import Risclet.Proofs.Node.Grammar
import Risclet.Proofs.Outcome
import Risclet.Proofs.Text.Numeral

/-! # The parser recognises the grammar

Each parsing function either gives the tree of a derivation of its tokens, or rejects them, and
then they have no derivation (`Parses`).  Since derivations are unique, the parser gives the tree of
*the* derivation of the tokens up to the end of the text, and rejects tokens that have none.

The numerals among the tokens have to be runs of digits that are not too long to be read; otherwise
the parser may fail without rejecting anything.
-/
namespace Risclet
namespace Grammar

/-! ## Outcomes of parsing -/

/-- A failure that says that tokens make no statement. -/
def IsGrammar (f : Failure) : Prop :=
  ∃ e, f = .rejected e ∧ e.fault.kind = .grammar

theorem isGrammar_fault {fault : Fault} (h : fault.kind = .grammar) (pos : Pos) :
    IsGrammar (.fault fault pos) :=
  ⟨⟨fault, pos⟩, rfl, h⟩

/-- A parser has found a derivation, and gives its tree; or there is none. -/
def Parses {D α : Type} (yield : D → List Token) (tree : D → α) (tokens : List Token)
    (result : Except Failure α) : Prop :=
  (∃ d, yield d = tokens ∧ result = .ok (tree d)) ∨
    ∃ f, result = .error f ∧ IsGrammar f ∧ ∀ d, yield d ≠ tokens

section Parses
variable {D α : Type} {yield : D → List Token} {tree : D → α} {tokens : List Token}

theorem Parses.rejected {fault : Fault} {pos : Pos} (hf : fault.kind = .grammar)
    (h : ∀ d, yield d ≠ tokens) : Parses yield tree tokens (.error (.fault fault pos)) :=
  .inr ⟨_, rfl, isGrammar_fault hf pos, h⟩

/-- A part is parsed, and the whole is made of it: the whole has a derivation exactly if the part
has one. -/
theorem Parses.map {E β : Type} {yield' : E → List Token} {tree' : E → β} {tokens' : List Token}
    {result : Except Failure α} (h : Parses yield tree tokens result) (f : α → β) (g : D → E)
    (hyield : ∀ d, yield d = tokens → yield' (g d) = tokens')
    (htree : ∀ d, yield d = tokens → tree' (g d) = f (tree d))
    (hpart : ∀ e, yield' e = tokens' → ∃ d, yield d = tokens) :
    Parses yield' tree' tokens' (result.map f) := by
  obtain ⟨d, hd, rfl⟩ | ⟨failure, rfl, hf, hno⟩ := h
  · exact .inl ⟨g d, hyield d hd, congrArg Except.ok (htree d hd).symm⟩
  · refine .inr ⟨failure, rfl, hf, fun e he => ?_⟩
    obtain ⟨d, hd⟩ := hpart e he
    exact hno d hd

/-- Two parts are parsed, one after the other, and the whole is made of both. -/
theorem Parses.seq {D' E α' β : Type} {yield' : D' → List Token} {tree' : D' → α'}
    {tokens' : List Token} {whole : E → List Token} {wholeTree : E → β} {all : List Token}
    {first : Except Failure α} {second : Except Failure α'} (h : Parses yield tree tokens first)
    (h' : Parses yield' tree' tokens' second) (f : α → α' → β) (g : D → D' → E)
    (hyield : ∀ d d', yield d = tokens → yield' d' = tokens' → whole (g d d') = all)
    (htree : ∀ d d', yield d = tokens → yield' d' = tokens' →
      wholeTree (g d d') = f (tree d) (tree' d'))
    (hparts : ∀ e, whole e = all → (∃ d, yield d = tokens) ∧ ∃ d', yield' d' = tokens') :
    Parses whole wholeTree all (do let a ← first; let b ← second; return f a b) := by
  obtain ⟨d, hd, rfl⟩ | ⟨failure, rfl, hf, hno⟩ := h
  · obtain ⟨d', hd', rfl⟩ | ⟨failure, rfl, hf, hno⟩ := h'
    · exact .inl ⟨g d d', hyield d d' hd hd', congrArg Except.ok (htree d d' hd hd').symm⟩
    · refine .inr ⟨failure, rfl, hf, fun e he => ?_⟩
      obtain ⟨-, d', hd'⟩ := hparts e he
      exact hno d' hd'
  · refine .inr ⟨failure, rfl, hf, fun e he => ?_⟩
    obtain ⟨⟨d, hd⟩, -⟩ := hparts e he
    exact hno d hd

end Parses

theorem exists_leaf {t : Token} {kind : TokenKind} (h : t.kind = kind) :
    ∃ leaf : Leaf kind, leaf.token = t :=
  ⟨⟨t.lexeme, t.pos⟩, by rw [Leaf.token, ← h]⟩

/-- Tokens whose numerals can be read. -/
def Legible (tokens : List Token) : Prop :=
  ∀ t ∈ tokens, t.kind = .intLiteral → Text.Numeral.IsNumeral t.lexeme

/-! ## Atoms -/

theorem intValue_leaf (digits : Leaf .intLiteral) (h : Text.Numeral.IsNumeral digits.lexeme)
    (pos : Pos) :
    Node.intValue digits.lexeme pos = if IsInt32 digits.value then .ok digits.value
      else .error (.fault (.literalTooLarge digits.lexeme) pos) := by
  rw [Node.intValue, Text.Numeral.read_isNumeral h]
  rfl

theorem intValue_minus_leaf (digits : Leaf .intLiteral)
    (h : Text.Numeral.IsNumeral digits.lexeme) (pos : Pos) :
    Node.intValue ("-" ++ digits.lexeme) pos = if IsInt32 (-digits.value) then .ok (-digits.value)
      else .error (.fault (.literalTooLarge ("-" ++ digits.lexeme)) pos) := by
  rw [Node.intValue, Text.Numeral.read_minus_isNumeral h]
  rfl

/-- The tokens of an atom and of what follows it. -/
def atomYield (p : Atom × List Token) : List Token :=
  p.1.yield ++ p.2

/-- The tree of an atom, and what follows it. -/
def atomTree (p : Atom × List Token) : Node × List Token :=
  (p.1.tree, p.2)

section Atoms
variable {rest : List Token}

theorem parseAtom_numeral_parses (digits : Leaf .intLiteral)
    (h : Legible (digits.token :: rest)) :
    Parses atomYield atomTree (digits.token :: rest) (Node.parseAtom digits.token rest) := by
  have hparse : Node.parseAtom digits.token rest =
    (Node.intValue digits.lexeme digits.pos).map fun v => (.int v digits.pos, rest) := rfl
  rw [hparse, intValue_leaf digits (h _ List.mem_cons_self rfl)]
  by_cases hv : IsInt32 digits.value
  · exact .inl ⟨(.int digits hv, rest), rfl, by rw [if_pos hv]; rfl⟩
  · rw [if_neg hv]
    refine .rejected rfl ?_
    rintro ⟨a, left⟩ ha
    obtain ⟨hf, -⟩ := List.cons.inj ha
    cases a with
    | int digits' range =>
      obtain rfl := Leaf.token_inj.mp hf
      exact hv range
    | _ => cases hf

theorem parseAtom_minus_parses (sign : Leaf .minus) (h : Legible (sign.token :: rest)) :
    Parses atomYield atomTree (sign.token :: rest) (Node.parseAtom sign.token rest) := by
  by_cases hr : ∃ digits : Leaf .intLiteral, ∃ tail, rest = digits.token :: tail
  · obtain ⟨digits, tail, rfl⟩ := hr
    have hparse : Node.parseAtom sign.token (digits.token :: tail) =
      (Node.intValue ("-" ++ digits.lexeme) sign.pos).map fun v => (.int v sign.pos, tail) := rfl
    have hdigits := h digits.token (List.mem_cons_of_mem _ List.mem_cons_self) rfl
    rw [hparse, intValue_minus_leaf digits hdigits]
    by_cases hv : IsInt32 (-digits.value)
    · exact .inl ⟨(.negative sign digits hv, tail), rfl, by rw [if_pos hv]; rfl⟩
    · rw [if_neg hv]
      refine .rejected rfl ?_
      rintro ⟨a, left⟩ ha
      obtain ⟨digits', range, -, ht⟩ := Atom.eq_negative ha
      obtain rfl := Leaf.token_inj.mp (List.cons.inj ht).1
      exact hv range
  · have hparse : Node.parseAtom sign.token rest =
        .error (.fault (.expectedValue sign.lexeme) sign.pos) := by
      cases rest with
      | nil => rfl
      | cons next tail =>
        obtain ⟨kind, text, place⟩ := next
        cases kind with
        | intLiteral => exact absurd ⟨⟨text, place⟩, tail, rfl⟩ hr
        | _ => rfl
    rw [hparse]
    refine .rejected rfl ?_
    rintro ⟨a, left⟩ ha
    obtain ⟨digits, range, -, ht⟩ := Atom.eq_negative ha
    exact hr ⟨digits, left, ht⟩

theorem parseAtom_parses {first : Token} (h : Legible (first :: rest)) :
    Parses atomYield atomTree (first :: rest) (Node.parseAtom first rest) := by
  obtain ⟨kind, lexeme, pos⟩ := first
  cases kind with
  | identifier => exact .inl ⟨(.name ⟨lexeme, pos⟩, rest), rfl, rfl⟩
  | stringLiteral => exact .inl ⟨(.string ⟨lexeme, pos⟩, rest), rfl, rfl⟩
  | intLiteral => exact parseAtom_numeral_parses ⟨lexeme, pos⟩ h
  | minus => exact parseAtom_minus_parses ⟨lexeme, pos⟩ h
  | _ =>
    refine .rejected rfl ?_
    rintro ⟨a, left⟩ ha
    obtain ⟨hf, -⟩ := List.cons.inj ha
    cases a <;> cases hf

end Atoms

/-! ## Expressions -/

/-- The token of an operator is a leaf of its kind. -/
theorem exists_leaf_of_arith? {sign : Token} {op : Arith} (h : sign.kind.arith? = some op) :
    ∃ leaf : Leaf op.token, leaf.token = sign := by
  apply exists_leaf
  cases hk : sign.kind <;> rw [hk] at h <;> cases h <;> rfl

theorem parseExpr_parses {first : Token} {rest : List Token} (h : Legible (first :: rest)) :
    Parses Expr.yield Expr.tree (first :: rest) (Node.parseExpr first rest) := by
  unfold Node.parseExpr
  obtain ⟨⟨left, tail⟩, hy, hok⟩ | ⟨f, herr, hf, hno⟩ := parseAtom_parses h
  · obtain rfl : left.first = first := (List.cons.inj hy).1
    rw [hok, ← hy]
    rw [← hy] at h
    cases tail with
    | nil =>
      refine .inl ⟨.atom left, ?_, rfl⟩
      simp [atomYield]
    | cons sign tail =>
      -- What follows is no operator, or an operator at the end, or an operator and more.
      simp only [atomTree, Outcome.bind_ok]
      split
      · next hsign =>
        refine .rejected rfl fun e he => ?_
        obtain ⟨op, leaf, right, -, rfl, -⟩ := Expr.eq_operation he
        simp at hsign
      · refine .rejected rfl fun e he => ?_
        obtain ⟨op, leaf, right, -, -, ht⟩ := Expr.eq_operation he
        cases ht
      · next op second rest hsign =>
        have hsecond : Legible (second :: rest) := fun t ht =>
          h t (List.mem_append_right _ (List.mem_cons_of_mem _ ht))
        obtain ⟨⟨right, tail⟩, hr, hok⟩ | ⟨f, herr, hf, hno⟩ := parseAtom_parses hsecond
        · rw [hok]
          cases tail with
          | nil =>
            obtain ⟨leaf, rfl⟩ := exists_leaf_of_arith? hsign
            refine .inl ⟨.operation left op leaf right, ?_, rfl⟩
            simp [atomYield, ← hr]
          | cons extra tail =>
            refine .rejected rfl fun e he => ?_
            obtain ⟨op, leaf, right', -, -, ht⟩ := Expr.eq_operation he
            obtain ⟨-, hc⟩ := Atom.append_inj (hr.trans (ht.trans (List.append_nil _).symm))
            cases hc
        · rw [herr]
          refine .inr ⟨f, rfl, hf, fun e he => ?_⟩
          obtain ⟨op, leaf, right, -, -, ht⟩ := Expr.eq_operation he
          exact hno (right, []) (by simp [atomYield, ht])
  · rw [herr]
    refine .inr ⟨f, rfl, hf, ?_⟩
    intro e he
    cases e with
    | atom a => exact hno (a, []) (by simpa [atomYield] using he)
    | operation left op sign right => exact hno (left, sign.token :: right.yield) he

/-! ## Arguments -/

theorem argsYield_eq_more {args : Option Args} {current tail : List Token}
    {comma : Leaf .comma} (hc : ∀ t ∈ current, t.kind ≠ .comma)
    (h : argsYield args = current ++ comma.token :: tail) :
    ∃ arg rest, args = some (.more arg comma rest) ∧ current = arg.yield ∧ tail = rest.yield := by
  cases args with
  | none => simp [argsYield] at h
  | some args =>
    obtain ⟨arg, rest, rfl, harg, hrest⟩ := Args.eq_more hc h
    exact ⟨arg, rest, rfl, harg, hrest⟩

/-- What is no comma is added to the argument that has been begun. -/
theorem parseArgs_cons {current tokens : List Token} {token : Token} (h : token.kind ≠ .comma) :
    Node.parseArgs current (token :: tokens) = Node.parseArgs (current ++ [token]) tokens := by
  conv => lhs; unfold Node.parseArgs
  exact if_neg h

theorem parseArgs_parses {current tokens : List Token} (hc : ∀ t ∈ current, t.kind ≠ .comma)
    (h : Legible (current ++ tokens)) :
    Parses argsYield argsTree (current ++ tokens) (Node.parseArgs current tokens) := by
  induction tokens generalizing current with
  | nil =>
    rw [List.append_nil] at h ⊢
    cases current with
    | nil => exact .inl ⟨none, rfl, rfl⟩
    | cons first rest =>
      rw [Node.parseArgs]
      refine (parseExpr_parses h).map _ (fun e => some (.last e)) (fun _ he => he)
        (fun _ _ => rfl) ?_
      rintro (_ | args) ha
      · cases ha
      · obtain ⟨arg, -, harg⟩ := Args.eq_last hc ha
        exact ⟨arg, harg.symm⟩
  | cons token tokens ih =>
    by_cases hk : token.kind = .comma
    · obtain ⟨comma, rfl⟩ := exists_leaf hk
      cases current with
      | nil =>
        refine .rejected rfl fun args ha => ?_
        obtain ⟨arg, rest, -, harg, -⟩ := argsYield_eq_more hc ha
        cases harg
      | cons first rest =>
        have hfirst : Legible (first :: rest) := fun t ht => h t (List.mem_append_left _ ht)
        have htokens : Legible ([] ++ tokens) := fun t ht =>
          h t (List.mem_append_right _ (List.mem_cons_of_mem _ ht))
        have harg := parseExpr_parses hfirst
        cases tokens with
        | nil =>
          -- Arguments do not end in a comma; but what is reported may be the argument before it.
          have hno : ∀ args, argsYield args ≠ first :: rest ++ [comma.token] := by
            intro args ha
            obtain ⟨arg, rest, -, -, hrest⟩ := argsYield_eq_more hc ha
            exact rest.yield_ne_nil hrest.symm
          obtain ⟨e, -, hok⟩ | ⟨f, herr, hf, -⟩ := harg
          · have hparse : Node.parseArgs (first :: rest) [comma.token] =
                .error (.fault .emptyArgument comma.pos) := by
              simp [Node.parseArgs, hok, Leaf.token]
            rw [hparse]
            exact .rejected rfl hno
          · exact .inr ⟨f, by simp [Node.parseArgs, herr], hf, hno⟩
        | cons next tokens =>
          have hnone : ∀ t ∈ ([] : List Token), t.kind ≠ .comma := by simp
          have hparse : Node.parseArgs (first :: rest) (comma.token :: next :: tokens) =
            (do let arg ← Node.parseExpr first rest
                let args ← Node.parseArgs [] (next :: tokens)
                return arg :: args) := rfl
          rw [hparse]
          refine harg.seq (ih hnone htokens) _
            (fun e args => args.map fun args => .more e comma args) ?_ ?_ ?_
          · rintro e (_ | args) he ha
            · cases ha
            · exact congrArg₂ (fun l r => l ++ comma.token :: r) he ha
          · rintro e (_ | args) he ha
            · cases ha
            · rfl
          · intro args ha
            obtain ⟨arg, rest, -, harg, hrest⟩ := argsYield_eq_more hc ha
            exact ⟨⟨arg, harg.symm⟩, some rest, hrest.symm⟩
    · have hnext : ∀ t ∈ current ++ [token], t.kind ≠ .comma := by
        simpa [or_imp, forall_and] using ⟨hc, hk⟩
      rw [parseArgs_cons hk]
      simpa using ih hnext (by simpa using h)

/-! ## Statements -/

section Statements
variable (name : Leaf .identifier) {tail : List Token}

theorem parseDeclaration_parses (colon : Leaf .colon) (type : Leaf .identifier)
    (h : Legible tail) :
    Parses Statement.yield Statement.tree (name.token :: colon.token :: type.token :: tail)
      (Node.parseDeclaration name.lexeme type.lexeme name.pos tail) := by
  cases tail with
  | nil => exact .inl ⟨.declaration name colon type, rfl, rfl⟩
  | cons equals value =>
    by_cases hk : equals.kind = .assign
    · obtain ⟨equals, rfl⟩ := exists_leaf hk
      cases value with
      | nil =>
        refine .rejected rfl fun s hs => ?_
        obtain ⟨-, ht⟩ | ⟨equals', value, -, ht⟩ := Statement.eq_declaration hs
        · cases ht
        · cases (List.cons.inj ht).2
      | cons first rest =>
        have hvalue : Legible (first :: rest) := fun t ht => h t (List.mem_cons_of_mem _ ht)
        refine (parseExpr_parses hvalue).map _ (.initialisation name colon type equals)
          (fun e he => ?_) (fun _ _ => rfl) fun s hs => ?_
        · rw [← he]
          rfl
        · obtain ⟨-, ht⟩ | ⟨equals', value, -, ht⟩ := Statement.eq_declaration hs
          · cases ht
          · exact ⟨value, (List.cons.inj ht).2.symm⟩
    · have hparse : Node.parseDeclaration name.lexeme type.lexeme name.pos (equals :: value) =
        .error (.fault .missingEquals equals.pos) := if_pos hk
      rw [hparse]
      refine .rejected rfl fun s hs => ?_
      obtain ⟨-, ht⟩ | ⟨equals', value, -, ht⟩ := Statement.eq_declaration hs
      · cases ht
      · exact hk (congrArg Token.kind (List.cons.inj ht).1)

theorem parseAssignment_parses (equals : Leaf .assign) (h : Legible tail) :
    Parses Statement.yield Statement.tree (name.token :: equals.token :: tail)
      (Node.parseAssignment name.lexeme name.pos equals.pos tail) := by
  cases tail with
  | nil =>
    refine .rejected rfl fun s hs => ?_
    obtain ⟨value, -, ht⟩ := Statement.eq_assignment hs
    cases ht
  | cons first rest =>
    refine (parseExpr_parses h).map _ (.assignment name equals) (fun e he => ?_)
      (fun _ _ => rfl) fun s hs => ?_
    · rw [← he]
      rfl
    · obtain ⟨value, -, ht⟩ := Statement.eq_assignment hs
      exact ⟨value, ht.symm⟩

/-- A call ends in a parenthesis; what stands before it are the arguments. -/
theorem parseCall_parses (left : Leaf .leftParen) (right : Leaf .rightParen)
    (h : Legible tail) :
    Parses Statement.yield Statement.tree (name.token :: left.token :: (tail ++ [right.token]))
      ((Node.parseArgs [] tail).map fun args => .call name.lexeme args name.pos) := by
  have hnone : ∀ t ∈ ([] : List Token), t.kind ≠ .comma := by simp
  refine (parseArgs_parses hnone h).map _ (.call name left · right) (fun args ha => ?_)
    (fun _ _ => rfl) fun s hs => ?_
  · rw [← List.nil_append tail, ← ha]
    rfl
  · obtain ⟨args, right', -, ht⟩ := Statement.eq_call hs
    exact ⟨args, (List.append_inj' ht rfl).1.symm⟩

end Statements

section Statement
variable {first : Token} {rest : List Token}

/-- A statement that has none of the particular forms is an expression or nothing. -/
theorem parseExprStatement_parses (h : Legible (first :: rest))
    (hform : ∀ s : Statement, s.yield = first :: rest → ∃ e, s = .expression e) :
    Parses Statement.yield Statement.tree (first :: rest) (Node.parseExprStatement first rest) := by
  unfold Node.parseExprStatement
  obtain ⟨e, hy, hok⟩ | ⟨f, herr, ⟨error, rfl, -⟩, hno⟩ := parseExpr_parses h
  · obtain rfl : e.first = first := (List.cons.inj hy).1
    rw [hok]
    exact .inl ⟨.expression e, hy, rfl⟩
  · rw [herr]
    refine .rejected rfl fun s hs => ?_
    obtain ⟨e, rfl⟩ := hform s hs
    exact hno e hs

/-- **Statements are told apart by their first tokens**, and calls by their last one too. -/
theorem parseStatement_parses (h : Legible (first :: rest)) :
    Parses Statement.yield Statement.tree (first :: rest) (Node.parseStatement first rest) := by
  unfold Node.parseStatement
  split
  · next colonText colonPos typeName typePos tail hk =>
    obtain ⟨name, rfl⟩ := exists_leaf hk
    exact parseDeclaration_parses name ⟨colonText, colonPos⟩ ⟨typeName, typePos⟩
      fun t ht => h t (by simp [ht])
  · next text equals value hk =>
    obtain ⟨name, rfl⟩ := exists_leaf hk
    exact parseAssignment_parses name ⟨text, equals⟩ fun t ht => h t (by simp [ht])
  · next text pos inside hk =>
    obtain ⟨name, rfl⟩ := exists_leaf hk
    split
    · next hlast =>
      obtain ⟨last, hl, hright⟩ := Option.map_eq_some_iff.mp hlast
      obtain ⟨args, rfl⟩ := List.getLast?_eq_some_iff.mp hl
      obtain ⟨right, rfl⟩ := exists_leaf hright
      rw [List.dropLast_concat]
      exact parseCall_parses name ⟨text, pos⟩ right fun t ht => h t (by simp [ht])
    · next hlast =>
      -- This is no call without a parenthesis at the end, and no expression with one after a name.
      refine parseExprStatement_parses h fun s hs => ?_
      have hyield : s.yield = name.token :: (⟨text, pos⟩ : Leaf .leftParen).token :: inside := hs
      obtain ⟨args, right, -, rfl⟩ := Statement.eq_call hyield
      simp at hlast
  · next hdecl hassign hcall =>
    -- The tokens of every other form would have matched before.
    refine parseExprStatement_parses h fun s hs => ?_
    obtain ⟨hf, ho⟩ := List.cons.inj hs
    have hk : ∀ {name : Leaf .identifier}, name.token = first → first.kind = .identifier :=
      fun hn => hn ▸ rfl
    cases s with
    | expression e => exact ⟨e, rfl⟩
    | declaration name colon type => exact (hdecl _ _ _ _ _ (hk hf) ho.symm).elim
    | initialisation name colon type equals value =>
      exact (hdecl _ _ _ _ _ (hk hf) ho.symm).elim
    | assignment name equals value => exact (hassign _ _ _ (hk hf) ho.symm).elim
    | call name left args right => exact (hcall _ _ _ (hk hf) ho.symm).elim

end Statement

/-! ## Programs -/

/-- The tokens before the end of the text. -/
def body (tokens : List Token) : List Token :=
  tokens.takeWhile fun t => t.kind != .endOfText

theorem parseEnd_parses {current : List Token} (hc : ∀ t ∈ current, t.kind ≠ .semicolon) :
    Parses Derivation.yield Derivation.tree current (Node.parseEnd current) := by
  unfold Node.parseEnd
  cases hl : current.getLast? with
  | none =>
    obtain rfl := List.getLast?_eq_none_iff.mp hl
    exact .inl ⟨[], rfl, rfl⟩
  | some last =>
    obtain ⟨before, rfl⟩ := List.getLast?_eq_some_iff.mp hl
    -- Every statement has a semicolon, and there is none among these tokens.
    refine .rejected rfl fun d hd => ?_
    cases d with
    | nil => simp [Derivation.yield] at hd
    | cons part d =>
      obtain ⟨s, semicolon⟩ := part
      rw [Derivation.yield_cons] at hd
      have hmem : semicolon.token ∈ before ++ [last] :=
        hd ▸ List.mem_append_right _ List.mem_cons_self
      exact hc _ hmem rfl

/-- What does not end a statement is added to the one that has been begun. -/
theorem parseFrom_cons {current tokens : List Token} {token : Token}
    (h : token.kind ∉ terminators) :
    Node.parseFrom current (token :: tokens) = Node.parseFrom (current ++ [token]) tokens := by
  conv => lhs; unfold Node.parseFrom
  cases hk : token.kind with
  | semicolon => simp [hk, terminators] at h
  | endOfText => simp [hk, terminators] at h
  | _ => rfl

/-- **A statement is parsed when its semicolon is reached.** -/
theorem parseFrom_parses {current tokens : List Token}
    (hc : ∀ t ∈ current, t.kind ≠ .semicolon) (h : Legible (current ++ body tokens)) :
    Parses Derivation.yield Derivation.tree (current ++ body tokens)
      (Node.parseFrom current tokens) := by
  induction tokens generalizing current with
  | nil => simpa [body, Node.parseFrom] using parseEnd_parses hc
  | cons token tokens ih =>
    by_cases hend : token.kind = .endOfText
    · have hbody : body (token :: tokens) = [] := by simp [body, hend]
      have hparse : Node.parseFrom current (token :: tokens) = Node.parseEnd current := by
        unfold Node.parseFrom
        rw [hend]
      rw [hbody, List.append_nil, hparse]
      exact parseEnd_parses hc
    · have hbody : body (token :: tokens) = token :: body tokens := by simp [body, hend]
      rw [hbody] at h ⊢
      by_cases hk : token.kind = .semicolon
      · obtain ⟨semicolon, rfl⟩ := exists_leaf hk
        cases current with
        | nil =>
          refine .rejected rfl fun d hd => ?_
          obtain ⟨s, rest, -, hs, -⟩ := Derivation.eq_cons hc hd
          cases hs
        | cons first rest =>
          have hparse : Node.parseFrom (first :: rest) (semicolon.token :: tokens) =
            (do let statement ← Node.parseStatement first rest
                let statements ← Node.parseFrom [] tokens
                return statement :: statements) := rfl
          have hfirst : Legible (first :: rest) := fun t ht => h t (List.mem_append_left _ ht)
          have htokens : Legible ([] ++ body tokens) := fun t ht =>
            h t (List.mem_append_right _ (List.mem_cons_of_mem _ ht))
          have hnone : ∀ t ∈ ([] : List Token), t.kind ≠ .semicolon := by simp
          rw [hparse]
          refine (parseStatement_parses hfirst).seq (ih hnone htokens) _
            (fun s d => (s, semicolon) :: d) (fun s d hs hd => ?_) (fun _ _ _ _ => rfl)
            fun d hd => ?_
          · rw [Derivation.yield_cons, hs, hd]
            rfl
          · obtain ⟨s, d', -, hs, hd'⟩ := Derivation.eq_cons hc hd
            exact ⟨⟨s, hs.symm⟩, d', hd'.symm⟩
      · have hnext : ∀ t ∈ current ++ [token], t.kind ≠ .semicolon := by
          simpa [or_imp, forall_and] using ⟨hc, hk⟩
        rw [parseFrom_cons (by simp [terminators, hk, hend])]
        simpa using ih hnext (by simpa using h)

/-- **The parser recognises the grammar.**  If the numerals before the end of the text can be read,
the parser gives exactly the trees of derivations of the tokens before the end; there is at most
one derivation; and if there is none, the tokens are rejected as making no statement. -/
theorem parse_recognises {tokens : List Token} (h : Legible (body tokens)) :
    (∀ nodes, Node.parse tokens = .ok nodes ↔
        ∃ d, Derivation.yield d = body tokens ∧ Derivation.tree d = nodes) ∧
      (∀ d d', Derivation.yield d = body tokens → Derivation.yield d' = body tokens → d = d') ∧
      ((¬ ∃ d, Derivation.yield d = body tokens) →
        ∃ e, Node.parse tokens = .error (.rejected e) ∧ e.fault.kind = .grammar) := by
  have hnone : ∀ t ∈ ([] : List Token), t.kind ≠ .semicolon := by simp
  have hparse : Parses Derivation.yield Derivation.tree (body tokens) (Node.parse tokens) :=
    parseFrom_parses hnone h
  refine ⟨fun nodes => ?_, fun d d' hd hd' => Derivation.yield_injective (hd.trans hd'.symm), ?_⟩
  · obtain ⟨d, hd, hok⟩ | ⟨f, herr, -, hno⟩ := hparse
    · rw [hok]
      constructor
      · intro he
        exact ⟨d, hd, Except.ok.inj he⟩
      · rintro ⟨d', hd', rfl⟩
        rw [Derivation.yield_injective (hd.trans hd'.symm)]
    · rw [herr]
      constructor
      · intro he
        cases he
      · rintro ⟨d, hd, -⟩
        exact absurd hd (hno d)
  · intro hno
    obtain ⟨d, hd, -⟩ | ⟨f, herr, ⟨e, rfl, he⟩, -⟩ := hparse
    · exact absurd ⟨d, hd⟩ hno
    · exact ⟨e, herr, he⟩

/-- A difference with a negative second operand, and a call with two arguments. -/
def difference : Derivation :=
  [(.initialisation ⟨"x", ⟨1, 1⟩⟩ ⟨":", ⟨1, 3⟩⟩ ⟨"Int32", ⟨1, 5⟩⟩ ⟨"=", ⟨1, 11⟩⟩
      (.operation (.int ⟨"3", ⟨1, 13⟩⟩ (by decide)) .subtract ⟨"-", ⟨1, 15⟩⟩
        (.negative ⟨"-", ⟨1, 17⟩⟩ ⟨"2147483648", ⟨1, 18⟩⟩ (by decide))), ⟨";", ⟨1, 28⟩⟩),
    (.call ⟨"f", ⟨2, 1⟩⟩ ⟨"(", ⟨2, 2⟩⟩ (some (.more (.atom (.name ⟨"x", ⟨2, 3⟩⟩)) ⟨",", ⟨2, 4⟩⟩
      (.last (.atom (.string ⟨"y", ⟨2, 6⟩⟩))))) ⟨")", ⟨2, 9⟩⟩, ⟨";", ⟨2, 10⟩⟩)]

/-- It is parsed from its tokens, whatever follows the end of the text. -/
theorem parse_recognises_difference :
    Node.parse (Derivation.yield difference ++ [⟨.endOfText, "", ⟨3, 1⟩⟩, ⟨.comma, ",", ⟨3, 2⟩⟩]) =
      .ok [.decl "x" "Int32" (.binary (.arith .subtract) (.int 3 ⟨1, 13⟩)
          (.int (-2147483648) ⟨1, 17⟩) ⟨1, 13⟩) ⟨1, 1⟩,
        .call "f" [.ident "x" ⟨2, 3⟩, .str "y" ⟨2, 6⟩] ⟨2, 1⟩] := by
  have hbody : body (Derivation.yield difference ++
      [⟨.endOfText, "", ⟨3, 1⟩⟩, ⟨.comma, ",", ⟨3, 2⟩⟩]) = Derivation.yield difference := rfl
  have hthree : Text.Numeral.IsNumeral "3" :=
    ⟨by decide, List.all_eq_true.mp (by decide), by decide⟩
  have hlong : Text.Numeral.IsNumeral "2147483648" :=
    ⟨by decide, List.all_eq_true.mp (by decide), by decide⟩
  have hlegible : Legible (Derivation.yield difference) := by
    simpa [Legible, Derivation.yield, difference, Statement.yield, Statement.first,
      Statement.others, Expr.yield, Expr.first, Expr.others, Atom.yield, Atom.first, Atom.others,
      argsYield, Args.yield, Leaf.token, Arith.token] using ⟨hthree, hlong⟩
  exact ((parse_recognises (hbody ▸ hlegible)).1 _).mpr ⟨difference, hbody.symm, rfl⟩

end Grammar
end Risclet
