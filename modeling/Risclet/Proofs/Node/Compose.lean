import Risclet.Proofs.Node.Parse

/-! # Parsing part by part

What has a derivation is parsed to its tree, and this does not depend on what stands around it: an
atom is parsed whatever follows it, arguments are cut at the commas and statements at the
semicolons.  So statements in order can be taken off the front of a program (`parse_yield`).
-/
namespace Risclet
namespace Grammar

/-! ## Derivations are parsed -/

/-- Where derivations are unique, a parser gives the tree of the one that there is. -/
theorem Parses.eq_ok {D α : Type} {yield : D → List Token} {tree : D → α} {d : D}
    {result : Except Failure α} (h : Parses yield tree (yield d) result)
    (hinj : ∀ d', yield d' = yield d → d' = d) : result = .ok (tree d) := by
  obtain ⟨d', hd, rfl⟩ | ⟨f, -, -, hno⟩ := h
  · rw [hinj d' hd]
  · exact absurd rfl (hno d)

theorem parseExpr_yield {e : Expr} (h : Legible e.yield) :
    Node.parseExpr e.first e.others = .ok e.tree :=
  (parseExpr_parses h).eq_ok fun _ => Expr.yield_injective

theorem parseArgs_yield {args : Args} (h : Legible args.yield) :
    Node.parseArgs [] args.yield = .ok args.tree := by
  have hnone : ∀ t ∈ ([] : List Token), t.kind ≠ .comma := by simp
  have hparses : Parses argsYield argsTree (argsYield (some args))
      (Node.parseArgs [] args.yield) :=
    parseArgs_parses hnone h
  exact hparses.eq_ok fun _ => argsYield_injective

theorem parseStatement_yield {s : Statement} (h : Legible s.yield) :
    Node.parseStatement s.first s.others = .ok s.tree :=
  (parseStatement_parses h).eq_ok fun _ => Statement.yield_injective

/-- An atom is parsed whatever follows it. -/
theorem parseAtom_yield {a : Atom} (h : Legible a.yield) (rest : List Token) :
    Node.parseAtom a.first (a.others ++ rest) = .ok (a.tree, rest) := by
  cases a with
  | name word => rfl
  | string text => rfl
  | int digits range =>
    have hvalue := intValue_leaf digits (h _ List.mem_cons_self rfl) digits.pos
    rw [if_pos range] at hvalue
    exact congrArg (Except.map fun v => (Node.int v digits.pos, rest)) hvalue
  | negative sign digits range =>
    have hdigits := h digits.token (List.mem_cons_of_mem _ List.mem_cons_self) rfl
    have hvalue := intValue_minus_leaf digits hdigits sign.pos
    rw [if_pos range] at hvalue
    exact congrArg (Except.map fun v => (Node.int v sign.pos, rest)) hvalue

theorem Legible.of_append_left {l r : List Token} (h : Legible (l ++ r)) : Legible l :=
  fun t ht => h t (List.mem_append_left _ ht)

theorem Legible.of_append_right {l r : List Token} (h : Legible (l ++ r)) : Legible r :=
  fun t ht => h t (List.mem_append_right _ ht)

theorem Legible.of_cons {t : Token} {r : List Token} (h : Legible (t :: r)) : Legible r :=
  fun t ht => h t (List.mem_cons_of_mem _ ht)

/-! ## Parts of the tokens

Arguments are cut at the commas, and statements at the semicolons. -/

section Cuts
variable {current tokens part : List Token} {first : Token} {rest : List Token}

theorem parseArgs_append (h : ∀ t ∈ part, t.kind ≠ .comma) :
    Node.parseArgs current (part ++ tokens) = Node.parseArgs (current ++ part) tokens := by
  induction part generalizing current with
  | nil => simp
  | cons t part ih =>
    obtain ⟨ht, hpart⟩ := List.forall_mem_cons.mp h
    rw [List.cons_append, parseArgs_cons ht, ih hpart]
    simp

/-- The last argument. -/
theorem parseArgs_last (h : ∀ t ∈ first :: rest, t.kind ≠ .comma) :
    Node.parseArgs [] (first :: rest) = (Node.parseExpr first rest).map ([·]) := by
  rw [← List.append_nil (first :: rest), parseArgs_append h]
  rfl

/-- An argument, and others after it. -/
theorem parseArgs_more (h : ∀ t ∈ first :: rest, t.kind ≠ .comma) (comma : Leaf .comma)
    (htokens : tokens ≠ []) :
    Node.parseArgs [] (first :: rest ++ comma.token :: tokens) = do
      let arg ← Node.parseExpr first rest
      let args ← Node.parseArgs [] tokens
      return arg :: args := by
  obtain ⟨next, tokens, rfl⟩ := List.exists_cons_of_ne_nil htokens
  rw [parseArgs_append h]
  rfl

theorem parseFrom_append (h : ∀ t ∈ part, t.kind ∉ terminators) :
    Node.parseFrom current (part ++ tokens) = Node.parseFrom (current ++ part) tokens := by
  induction part generalizing current with
  | nil => simp
  | cons t part ih =>
    obtain ⟨ht, hpart⟩ := List.forall_mem_cons.mp h
    rw [List.cons_append, parseFrom_cons ht, ih hpart]
    simp

/-- A statement, and others after it. -/
theorem parse_statement (h : ∀ t ∈ first :: rest, t.kind ∉ terminators)
    (semicolon : Leaf .semicolon) :
    Node.parse (first :: rest ++ semicolon.token :: tokens) = do
      let statement ← Node.parseStatement first rest
      let statements ← Node.parse tokens
      return statement :: statements := by
  rw [Node.parse, parseFrom_append h]
  rfl

end Cuts

/-- Statements that have a derivation are parsed whatever follows them. -/
theorem parse_yield {d : Derivation} (h : Legible d.yield) (tokens : List Token) :
    Node.parse (d.yield ++ tokens) = (Node.parse tokens).map (d.tree ++ ·) := by
  induction d with
  | nil =>
    have hid : Node.parse tokens = (Node.parse tokens).map id := by
      cases Node.parse tokens <;> rfl
    exact hid
  | cons part d ih =>
    obtain ⟨s, semicolon⟩ := part
    rw [Derivation.yield_cons] at h ⊢
    have hs : Node.parseStatement s.first s.others = .ok s.tree :=
      parseStatement_yield h.of_append_left
    rw [List.append_assoc, List.cons_append, Statement.yield,
      parse_statement s.kind_not_mem_terminators, hs, ih h.of_append_right.of_cons]
    cases Node.parse tokens <;> rfl

end Grammar
end Risclet
