import Risclet.Proofs.Node.Origin

/-! # The words of a tree

The names and the strings in a tree that the parser makes are the lexemes of tokens, at the
positions of these tokens (`Node.Spelled`).  So what scanning says of tokens holds of the words in
trees: of the names that statements read, assign to, declare and call, and of the strings that they
hold.

Each parsing function is treated in turn, on tokens out of a fixed list.
-/
namespace Risclet

/-- A tree whose names and strings are lexemes of tokens. -/
inductive Node.Spelled (tokens : List Token) : Node → Prop where
  | int (value : Int) (pos : Pos) : Spelled tokens (.int value pos)
  | str {value : String} {pos : Pos} :
      ⟨.stringLiteral, value, pos⟩ ∈ tokens → Spelled tokens (.str value pos)
  | ident {name : String} {pos : Pos} :
      ⟨.identifier, name, pos⟩ ∈ tokens → Spelled tokens (.ident name pos)
  | binary {left right : Node} (op : Operator) (pos : Pos) :
      Spelled tokens left → Spelled tokens right → Spelled tokens (.binary op left right pos)
  | decl {name : String} {value : Node} {pos : Pos} (typeName : String) :
      ⟨.identifier, name, pos⟩ ∈ tokens → Spelled tokens value →
      Spelled tokens (.decl name typeName value pos)
  | assign {name : String} {value : Node} {pos : Pos} :
      ⟨.identifier, name, pos⟩ ∈ tokens → Spelled tokens value →
      Spelled tokens (.assign name value pos)
  | call {name : String} {args : List Node} {pos : Pos} :
      ⟨.identifier, name, pos⟩ ∈ tokens → (∀ arg ∈ args, Spelled tokens arg) →
      Spelled tokens (.call name args pos)
  | expr {value : Node} (pos : Pos) : Spelled tokens value → Spelled tokens (.expr value pos)
  | absent : Spelled tokens .absent

/-! ## Names -/

/-- A name that is the lexeme of a token. -/
def IsWord (tokens : List Token) (name : String) : Prop :=
  ∃ pos, ⟨.identifier, name, pos⟩ ∈ tokens

namespace Node

theorem mem_namesAll {name : String} {nodes : List Node} :
    name ∈ namesAll nodes ↔ ∃ node ∈ nodes, name ∈ node.names := by
  induction nodes with
  | nil => simp [namesAll]
  | cons node nodes ih => simp [namesAll, ih]

section Words
variable {tokens : List Token} {node : Node} {name : String}

/-- The names that are read in a tree are words. -/
theorem Spelled.isWord_of_names (h : node.Spelled tokens) (hn : name ∈ node.names) :
    IsWord tokens name := by
  induction h with
  | ident ht =>
    obtain rfl := List.mem_singleton.mp hn
    exact ⟨_, ht⟩
  | binary _ _ _ _ ihl ihr =>
    rw [names, List.mem_append] at hn
    exact hn.elim ihl ihr
  | call _ _ ih =>
    rw [names, mem_namesAll] at hn
    obtain ⟨arg, harg, hn⟩ := hn
    exact ih arg harg hn
  | decl _ _ _ ih | assign _ _ ih | expr _ _ ih => exact ih (by simpa [names] using hn)
  | int | str | absent => simp [names] at hn

/-- **The names that a statement uses are words**, and so is the one that it declares. -/
theorem Spelled.isWord_of_uses (h : node.Spelled tokens) (hn : name ∈ node.uses) :
    IsWord tokens name := by
  have hnames : name ∈ node.names → IsWord tokens name := h.isWord_of_names
  cases node with
  | assign key value pos =>
    cases h with
    | assign ht _ =>
      rcases List.mem_cons.mp hn with rfl | hn
      · exact ⟨_, ht⟩
      · exact hnames hn
  | _ => exact hnames hn

theorem Spelled.isWord_of_declaredName? (h : node.Spelled tokens)
    (hn : node.declaredName? = some name) : IsWord tokens name := by
  cases h with
  | decl _ ht _ =>
    cases hn
    exact ⟨_, ht⟩
  | _ => cases hn

end Words
end Node

/-! ## Parsing -/

/-- A computation whose result, if it has one, has the property `good`. -/
def Yields {α : Type} (good : α → Prop) (x : Except Failure α) : Prop :=
  ∀ a, x = .ok a → good a

section Yields
variable {α β : Type} {good : α → Prop} {fine : β → Prop} {x : Except Failure α}

theorem Yields.ok {a : α} (h : good a) : Yields good (.ok a) := by
  rintro _ ⟨⟩
  exact h

theorem Yields.error {f : Failure} : Yields good (.error f) := by
  rintro _ ⟨⟩

theorem Yields.bind {f : α → Except Failure β} (h : Yields good x)
    (hf : ∀ a, good a → Yields fine (f a)) : Yields fine (x >>= f) := by
  intro b hb
  obtain ⟨a, ha, hb⟩ := Outcome.bind_eq_ok.mp hb
  exact hf a (h a ha) b hb

theorem Yields.map {f : α → β} (h : Yields good x) (hf : ∀ a, good a → fine (f a)) :
    Yields fine (x.map f) := by
  intro b hb
  obtain ⟨a, ha, rfl⟩ := Outcome.map_eq_ok.mp hb
  exact hf a (h a ha)

/-- Nothing need be known of the parts of a result that does not depend on them. -/
theorem Yields.trivial (x : Except Failure α) : Yields (fun _ => True) x :=
  fun _ _ => .intro

end Yields

namespace Node

section Parsing
variable {tokens current rest : List Token} {first : Token}

theorem mem_of_kind {t : Token} {kind : TokenKind} (h : t ∈ tokens) (hk : t.kind = kind) :
    ⟨kind, t.lexeme, t.pos⟩ ∈ tokens := by
  subst hk
  exact h

theorem parseAtom_spelled (h : first :: rest ⊆ tokens) :
    Yields (fun p => p.1.Spelled tokens ∧ p.2 ⊆ tokens) (parseAtom first rest) := by
  obtain ⟨hfirst, hrest⟩ := List.cons_subset.mp h
  unfold parseAtom
  split
  · next hk => exact .ok ⟨.ident (mem_of_kind hfirst hk), hrest⟩
  · next hk => exact .ok ⟨.str (mem_of_kind hfirst hk), hrest⟩
  · exact (Yields.trivial _).map fun v _ => ⟨.int v _, hrest⟩
  · exact (Yields.trivial _).map fun v _ => ⟨.int v _, List.subset_of_cons_subset hrest⟩
  · exact .error

theorem parseExpr_spelled (h : first :: rest ⊆ tokens) :
    Yields (Spelled tokens) (parseExpr first rest) := by
  unfold parseExpr
  refine (parseAtom_spelled h).bind ?_
  rintro ⟨left, tail⟩ ⟨hleft, htail⟩
  cases tail with
  | nil => exact .ok hleft
  | cons sign tail =>
    simp only
    split
    · exact .error
    · exact .error
    · refine (parseAtom_spelled (List.subset_of_cons_subset htail)).bind ?_
      rintro ⟨right, extra⟩ ⟨hright, -⟩
      cases extra with
      | nil => exact .ok (.binary _ _ hleft hright)
      | cons t extra => exact .error

theorem parseArgs_spelled (hcurrent : current ⊆ tokens) (hrest : rest ⊆ tokens) :
    Yields (fun args => ∀ arg ∈ args, arg.Spelled tokens) (parseArgs current rest) := by
  fun_induction parseArgs current rest with
  | case1 => exact .ok (by simp)
  | case2 first rest =>
    exact (parseExpr_spelled hcurrent).map fun arg harg => List.forall_mem_singleton.mpr harg
  | case3 => exact .error
  | case4 token rest hcomma first args ih =>
    refine (parseExpr_spelled hcurrent).bind fun arg harg => ?_
    split
    · exact .error
    · refine (ih (List.nil_subset _) (List.subset_of_cons_subset hrest)).bind fun args hargs => ?_
      exact .ok (List.forall_mem_cons.mpr ⟨harg, hargs⟩)
  | case5 current token rest hcomma ih =>
    obtain ⟨htoken, htail⟩ := List.cons_subset.mp hrest
    exact ih (concat_subset hcurrent htoken) htail

theorem parseExprStatement_spelled (h : first :: rest ⊆ tokens) :
    Yields (Spelled tokens) (parseExprStatement first rest) := by
  unfold parseExprStatement
  split
  · next value hvalue => exact .ok (.expr first.pos (parseExpr_spelled h value hvalue))
  · exact .error
  · exact .error

theorem parseDeclaration_spelled {name : String} {pos : Pos} (typeName : String)
    (hname : ⟨.identifier, name, pos⟩ ∈ tokens) (h : rest ⊆ tokens) :
    Yields (Spelled tokens) (parseDeclaration name typeName pos rest) := by
  fun_cases parseDeclaration name typeName pos rest with
  | case1 => exact .ok (.decl typeName hname .absent)
  | case2 => exact .error
  | case3 => exact .error
  | case4 equals _ first rest =>
    refine (parseExpr_spelled (List.subset_of_cons_subset h)).map fun value hvalue => ?_
    exact .decl typeName hname hvalue

theorem parseAssignment_spelled {name : String} {pos : Pos} (equals : Pos)
    (hname : ⟨.identifier, name, pos⟩ ∈ tokens) (h : rest ⊆ tokens) :
    Yields (Spelled tokens) (parseAssignment name pos equals rest) := by
  cases rest with
  | nil => exact .error
  | cons first rest => exact (parseExpr_spelled h).map fun value hvalue => .assign hname hvalue

theorem parseStatement_spelled (h : first :: rest ⊆ tokens) :
    Yields (Spelled tokens) (parseStatement first rest) := by
  have hexpr := parseExprStatement_spelled h
  obtain ⟨hfirst, hrest⟩ := List.cons_subset.mp h
  unfold parseStatement
  split
  · next hk =>
    exact parseDeclaration_spelled _ (mem_of_kind hfirst hk)
      (List.subset_of_cons_subset (List.subset_of_cons_subset hrest))
  · next hk =>
    exact parseAssignment_spelled _ (mem_of_kind hfirst hk) (List.subset_of_cons_subset hrest)
  · next hk =>
    split
    · have hinside := List.Subset.trans (List.dropLast_subset _) (List.subset_of_cons_subset hrest)
      refine (parseArgs_spelled (List.nil_subset _) hinside).map fun args hargs => ?_
      exact .call (mem_of_kind hfirst hk) hargs
    · exact hexpr
  · exact hexpr

theorem parseEnd_spelled : Yields (fun nodes => ∀ node ∈ nodes, node.Spelled tokens)
    (parseEnd current) := by
  unfold parseEnd
  split
  · exact .ok (by simp)
  · exact .error

theorem parseFrom_spelled (hcurrent : current ⊆ tokens) (hrest : rest ⊆ tokens) :
    Yields (fun nodes => ∀ node ∈ nodes, node.Spelled tokens) (parseFrom current rest) := by
  fun_induction parseFrom current rest with
  | case1 => exact parseEnd_spelled
  | case2 => exact parseEnd_spelled
  | case3 => exact .error
  | case4 token rest _ first others ih =>
    refine (parseStatement_spelled hcurrent).bind fun node hnode => ?_
    refine (ih (List.nil_subset _) (List.subset_of_cons_subset hrest)).bind fun nodes hnodes => ?_
    exact .ok (List.forall_mem_cons.mpr ⟨hnode, hnodes⟩)
  | case5 current token rest _ _ ih =>
    obtain ⟨htoken, htail⟩ := List.cons_subset.mp hrest
    exact ih (concat_subset hcurrent htoken) htail

/-- **The words of the statements are lexemes of the tokens.** -/
theorem parse_spelled {nodes : List Node} (h : parse tokens = .ok nodes) :
    ∀ node ∈ nodes, node.Spelled tokens :=
  parseFrom_spelled (List.nil_subset _) (List.Subset.refl _) nodes h

end Parsing
end Node
end Risclet
