import Mathlib.Data.List.Forall2
import Risclet.Proofs.Strictness
import Risclet.Proofs.Token.Partition

/-! # Positions carry no meaning

Positions go from the source into tokens, from tokens into trees, and from trees into errors.  No
stage decides anything by them, and no wording shows them.  This is proved by running each stage
twice, on inputs that are the same but for positions: tokens of the same kinds and lexemes
(`Token.Same`), and trees that are equal without their positions (`Node.Same`).  The two runs agree
(`Agree`): their results are again the same but for positions, or both fail for the same reason.

Flattening ends it, since tuple programs hold no positions.  Scanning is where layout becomes
positions: two texts that are cut into the same pieces but for blanks and comments (`Respaced`) have
the same tokens at other places.

Main statement: `layout_immaterial`.
-/
namespace Risclet

/-! ## Outcomes but for positions -/

/-- The outcomes of two runs: results that are related, or failures with the same cause.  Where a
program is rejected, the faults are the same, with their class and wording, and the places may
differ. -/
inductive Agree {α β : Type} (R : α → β → Prop) : Except Failure α → Except Failure β → Prop where
  | ok {a : α} {b : β} : R a b → Agree R (.ok a) (.ok b)
  | fault (fault : Fault) (pos pos' : Pos) :
      Agree R (.error (.rejected ⟨fault, pos⟩)) (.error (.rejected ⟨fault, pos'⟩))
  | defect (d : Defect) : Agree R (.error (.defect d)) (.error (.defect d))

section Agree
variable {α β γ δ : Type} {R : α → β → Prop} {S : γ → δ → Prop} {x : Except Failure α}
  {y : Except Failure β}

/-- Two sequences agree if their parts do. -/
theorem Agree.bind {f : α → Except Failure γ} {g : β → Except Failure δ} (h : Agree R x y)
    (hf : ∀ a b, R a b → Agree S (f a) (g b)) : Agree S (x >>= f) (y >>= g) := by
  cases h with
  | ok hab => exact hf _ _ hab
  | fault fault pos pos' => exact .fault fault pos pos'
  | defect d => exact .defect d

theorem Agree.map {f : α → γ} {g : β → δ} (h : Agree R x y) (hf : ∀ a b, R a b → S (f a) (g b)) :
    Agree S (x.map f) (y.map g) := by
  cases h with
  | ok hab => exact .ok (hf _ _ hab)
  | fault fault pos pos' => exact .fault fault pos pos'
  | defect d => exact .defect d

theorem Agree.exists_of_ok {a : α} (h : Agree R (.ok a) y) : ∃ b, y = .ok b ∧ R a b := by
  cases h with
  | ok hab => exact ⟨_, rfl, hab⟩

theorem Agree.refl (x : Except Failure α) : Agree Eq x x := by
  rcases x with (e | d) | a
  · exact .fault e.fault e.pos e.pos
  · exact .defect d
  · exact .ok rfl

end Agree

/-- Tokens of the same kind with the same lexeme, wherever they stand. -/
structure Token.Same (t t' : Token) : Prop where
  kind : t.kind = t'.kind
  lexeme : t.lexeme = t'.lexeme

/-- Trees that are the same but for positions. -/
def Node.Same (node node' : Node) : Prop :=
  node.erase = node'.erase

/-! ## Parsing -/

namespace Node

/-- What is left of two lists of tokens is the same, and so are the trees of what was parsed. -/
def SameRest (p p' : Node × List Token) : Prop :=
  p.1.Same p'.1 ∧ List.Forall₂ Token.Same p.2 p'.2

theorem intValue_agree (written : String) (pos pos' : Pos) :
    Agree Eq (intValue written pos) (intValue written pos') := by
  unfold intValue
  split
  · exact .defect _
  · exact .defect _
  · split
    · exact .ok rfl
    · exact .fault _ pos pos'

section Parsing
variable {first first' : Token} {rest rest' current current' tokens tokens' : List Token}

theorem parseAtom_agree (hf : first.Same first') (hr : List.Forall₂ Token.Same rest rest') :
    Agree SameRest (parseAtom first rest) (parseAtom first' rest') := by
  obtain ⟨kind, lexeme, pos⟩ := first
  obtain ⟨kind', lexeme', pos'⟩ := first'
  obtain ⟨rfl, rfl⟩ := hf
  cases kind with
  | identifier => exact .ok ⟨by simp [Same, erase], hr⟩
  | stringLiteral => exact .ok ⟨by simp [Same, erase], hr⟩
  | intLiteral =>
    refine (intValue_agree lexeme pos pos').map ?_
    rintro v _ rfl
    exact ⟨by simp [Same, erase], hr⟩
  | minus =>
    cases hr with
    | nil => exact .fault _ pos pos'
    | @cons t t' rest rest' ht hrest =>
      obtain ⟨next, digits, place⟩ := t
      obtain ⟨next', digits', place'⟩ := t'
      obtain ⟨rfl, rfl⟩ := ht
      cases next with
      | intLiteral =>
        refine (intValue_agree ("-" ++ digits) pos pos').map ?_
        rintro v _ rfl
        exact ⟨by simp [Same, erase], hrest⟩
      | _ => exact .fault _ pos pos'
  | _ => exact .fault _ pos pos'

theorem parseExpr_agree (hf : first.Same first') (hr : List.Forall₂ Token.Same rest rest') :
    Agree Same (parseExpr first rest) (parseExpr first' rest') := by
  unfold parseExpr
  refine (parseAtom_agree hf hr).bind ?_
  rintro ⟨left, tail⟩ ⟨left', tail'⟩ ⟨hleft, htail⟩
  cases htail with
  | nil => exact .ok hleft
  | @cons sign sign' tail tail' hsign htail =>
    obtain ⟨kind, lexeme, pos⟩ := sign
    obtain ⟨kind', lexeme', pos'⟩ := sign'
    obtain ⟨rfl, rfl⟩ := hsign
    cases hk : kind.arith? with
    | none =>
      simp only [hk]
      exact .fault _ pos pos'
    | some op =>
      simp only [hk]
      cases htail with
      | nil => exact .fault _ pos pos'
      | cons hsecond htail =>
        refine (parseAtom_agree hsecond htail).bind ?_
        rintro ⟨right, extra⟩ ⟨right', extra'⟩ ⟨hright, hextra⟩
        cases hextra with
        | nil =>
          refine .ok ?_
          rw [Same, erase, erase, hleft, hright]
        | cons _ _ => exact .fault _ _ _

/-- Lists that are related have related last elements, and related elements before. -/
theorem forall₂_concat (h : List.Forall₂ Token.Same tokens tokens') :
    (tokens = [] ∧ tokens' = []) ∨ ∃ front last front' last', tokens = front ++ [last] ∧
      tokens' = front' ++ [last'] ∧ List.Forall₂ Token.Same front front' ∧ last.Same last' := by
  induction h with
  | nil => exact .inl ⟨rfl, rfl⟩
  | @cons t t' tokens tokens' ht h ih =>
    right
    rcases ih with ⟨rfl, rfl⟩ | ⟨front, last, front', last', rfl, rfl, hfront, hlast⟩
    · exact ⟨[], t, [], t', rfl, rfl, .nil, ht⟩
    · exact ⟨t :: front, last, t' :: front', last', rfl, rfl, .cons ht hfront, hlast⟩

theorem parseArgs_agree (hc : List.Forall₂ Token.Same current current')
    (h : List.Forall₂ Token.Same tokens tokens') :
    Agree (List.Forall₂ Same) (parseArgs current tokens) (parseArgs current' tokens') := by
  induction h generalizing current current' with
  | nil =>
    cases hc with
    | nil => exact .ok .nil
    | cons hfirst hrest =>
      refine (parseExpr_agree hfirst hrest).map ?_
      intro node node' hnode
      exact .cons hnode .nil
  | @cons token token' tokens tokens' ht h ih =>
    rw [parseArgs.eq_def, parseArgs.eq_def]
    simp only [← ht.kind]
    split
    · cases hc with
      | nil => exact .fault _ _ _
      | cons hfirst hrest =>
        refine (parseExpr_agree hfirst hrest).bind ?_
        intro arg arg' harg
        cases h with
        | nil => exact .fault _ _ _
        | cons hnext htokens =>
          refine (ih .nil).bind ?_
          intro args args' hargs
          exact .ok (.cons harg hargs)
    · exact ih (List.rel_append hc (.cons ht .nil))

theorem parseExprStatement_agree (hf : first.Same first')
    (hr : List.Forall₂ Token.Same rest rest') :
    Agree Same (parseExprStatement first rest) (parseExprStatement first' rest') := by
  unfold parseExprStatement
  have hexpr := parseExpr_agree hf hr
  generalize parseExpr first rest = x at hexpr
  generalize parseExpr first' rest' = y at hexpr
  cases hexpr with
  | ok hnode =>
    refine .ok ?_
    rw [Same, erase, erase, hnode]
  | fault => exact .fault _ _ _
  | defect d => exact .defect d

theorem parseDeclaration_agree (name typeName : String) (pos pos' : Pos)
    (h : List.Forall₂ Token.Same tokens tokens') :
    Agree Same (parseDeclaration name typeName pos tokens)
      (parseDeclaration name typeName pos' tokens') := by
  cases h with
  | nil => exact .ok (by simp [Same, erase])
  | cons hequals hvalue =>
    rw [parseDeclaration.eq_def, parseDeclaration.eq_def]
    simp only [← hequals.kind]
    split
    · exact .fault _ _ _
    · cases hvalue with
      | nil => exact .fault _ _ _
      | cons hfirst hrest =>
        refine (parseExpr_agree hfirst hrest).map ?_
        intro value value' hv
        rw [Same, erase, erase, hv]

theorem parseAssignment_agree (name : String) (pos pos' equals equals' : Pos)
    (h : List.Forall₂ Token.Same tokens tokens') :
    Agree Same (parseAssignment name pos equals tokens)
      (parseAssignment name pos' equals' tokens') := by
  cases h with
  | nil => exact .fault _ _ _
  | cons hfirst hrest =>
    refine (parseExpr_agree hfirst hrest).map ?_
    intro value value' hv
    rw [Same, erase, erase, hv]

/-- Trees of arguments that are the same but for positions. -/
theorem eraseAll_eq_of_forall₂ {nodes nodes' : List Node} (h : List.Forall₂ Same nodes nodes') :
    eraseAll nodes = eraseAll nodes' := by
  induction h with
  | nil => rfl
  | cons hnode _ ih => rw [eraseAll, eraseAll, hnode, ih]

theorem length_eraseAll (nodes : List Node) : (eraseAll nodes).length = nodes.length := by
  induction nodes with
  | nil => rfl
  | cons node nodes ih => rw [eraseAll, List.length_cons, List.length_cons, ih]

/-- **Statements are told apart by kinds of tokens.** -/
theorem parseStatement_agree (hf : first.Same first') (hr : List.Forall₂ Token.Same rest rest') :
    Agree Same (parseStatement first rest) (parseStatement first' rest') := by
  have hexpr := parseExprStatement_agree hf hr
  obtain ⟨kind, lexeme, pos⟩ := first
  obtain ⟨kind', lexeme', pos'⟩ := first'
  obtain ⟨rfl, rfl⟩ := hf
  cases kind with
  | identifier =>
    cases hr with
    | nil => exact hexpr
    | @cons t t' tail tail' ht htail =>
      obtain ⟨second, text, place⟩ := t
      obtain ⟨second', text', place'⟩ := t'
      obtain ⟨rfl, rfl⟩ := ht
      cases second with
      | colon =>
        cases htail with
        | nil => exact hexpr
        | @cons u u' tail tail' hu htail =>
          obtain ⟨third, typeName, spot⟩ := u
          obtain ⟨third', typeName', spot'⟩ := u'
          obtain ⟨rfl, rfl⟩ := hu
          cases third with
          | identifier => exact parseDeclaration_agree lexeme typeName pos pos' htail
          | _ => exact hexpr
      | assign => exact parseAssignment_agree lexeme pos pos' place place' htail
      | leftParen =>
        rcases forall₂_concat htail with
          ⟨rfl, rfl⟩ | ⟨front, last, front', last', rfl, rfl, hfront, hlast⟩
        · exact hexpr
        · simp only [parseStatement, List.getLast?_concat, List.dropLast_concat, Option.map_some,
            ← hlast.kind]
          split
          · refine (parseArgs_agree .nil hfront).map ?_
            intro args args' hargs
            rw [Same, erase, erase, eraseAll_eq_of_forall₂ hargs]
          · exact hexpr
      | _ => exact hexpr
  | _ => exact hexpr

theorem parseEnd_agree (hc : List.Forall₂ Token.Same current current') :
    Agree (List.Forall₂ Same) (parseEnd current) (parseEnd current') := by
  rcases forall₂_concat hc with ⟨rfl, rfl⟩ | ⟨front, last, front', last', rfl, rfl, -, -⟩
  · exact .ok .nil
  · simp only [parseEnd, List.getLast?_concat]
    exact .fault _ _ _

theorem parseFrom_agree (hc : List.Forall₂ Token.Same current current')
    (h : List.Forall₂ Token.Same tokens tokens') :
    Agree (List.Forall₂ Same) (parseFrom current tokens) (parseFrom current' tokens') := by
  induction h generalizing current current' with
  | nil => exact parseEnd_agree hc
  | @cons token token' tokens tokens' ht h ih =>
    have hnext := ih (List.rel_append hc (.cons ht .nil))
    rw [parseFrom.eq_def, parseFrom.eq_def]
    simp only [← ht.kind]
    split
    · exact parseEnd_agree hc
    · cases hc with
      | nil => exact .fault _ _ _
      | cons hfirst hrest =>
        refine (parseStatement_agree hfirst hrest).bind ?_
        intro statement statement' hs
        refine (ih .nil).bind ?_
        intro statements statements' hss
        exact .ok (.cons hs hss)
    · exact hnext

end Parsing
end Node

/-! ## Flattening -/

namespace Tuple

section Cause
variable {α β : Type} {x y : Except Error α}

/-- The outcome of a check without the place of the error. -/
def cause (x : Except Error α) : Except Fault α :=
  x.mapError Error.fault

theorem cause_bind {f g : α → Except Error β} (h : cause x = cause y)
    (hf : ∀ a, cause (f a) = cause (g a)) : cause (x >>= f) = cause (y >>= g) := by
  cases x with
  | error e =>
    cases y with
    | error e' => exact congrArg Except.error (Except.error.inj h)
    | ok b => cases h
  | ok a =>
    cases y with
    | error e' => cases h
    | ok b =>
      obtain rfl : a = b := Except.ok.inj h
      exact hf a

theorem cause_map (h : cause x = cause y) (f : α → β) : cause (x.map f) = cause (y.map f) := by
  have hbind : ∀ z : Except Error α, z.map f = z >>= fun a => .ok (f a) := by
    intro z
    cases z <;> rfl
  rw [hbind, hbind]
  exact cause_bind h fun _ => rfl

end Cause

section Erase
variable (o : Options) (vars : Table DataType)

theorem cause_checkDeclared (name : String) (pos pos' : Pos) :
    cause (checkDeclared o vars name pos) = cause (checkDeclared o vars name pos') := by
  unfold checkDeclared
  split <;> rfl

theorem cause_checkLiteral (name : String) (declared : Option DataType) (value : Item)
    (first : Bool) (pos pos' : Pos) :
    cause (checkLiteral name declared value first pos) =
      cause (checkLiteral name declared value first pos') := by
  unfold checkLiteral
  split
  · rfl
  · split
    · rfl
    · split
      · rfl
      · split <;> rfl

theorem cause_toItem (node : Node) :
    cause (toItem o vars node.erase) = cause (toItem o vars node) := by
  cases node with
  | int value pos =>
    rw [Node.erase, toItem, toItem]
    split <;> rfl
  | ident name pos =>
    rw [Node.erase]
    exact cause_map (cause_checkDeclared o vars name Pos.unknown pos) _
  | _ => rfl

theorem cause_toOperand (node : Node) :
    cause (toOperand o vars node.erase) = cause (toOperand o vars node) := by
  rw [toOperand_eq_bind, toOperand_eq_bind]
  refine cause_bind (cause_toItem o vars node) fun item => ?_
  split <;> rfl

theorem cause_flattenValue (node : Node) :
    cause (flattenValue o vars node.erase) = cause (flattenValue o vars node) := by
  have hitem := cause_map (cause_toItem o vars node) fun item => (([], item) : List Instr × Item)
  cases node with
  | binary op left right pos =>
    rw [Node.erase]
    refine cause_bind (cause_toOperand o vars left) fun l => ?_
    exact cause_bind (cause_toOperand o vars right) fun r => rfl
  | _ => exact hitem

theorem cause_flattenInitialiser (name : String) (type : DataType) (pos pos' : Pos)
    (node : Node) :
    cause (flattenInitialiser o vars name type pos node.erase) =
      cause (flattenInitialiser o vars name type pos' node) := by
  have hvalue := cause_bind (cause_flattenValue o vars node) fun result : List Instr × Item =>
    cause_bind (cause_checkLiteral name (some ((vars.get? name).getD type)) result.2
      (!vars.contains name) pos pos') fun _ =>
        (rfl : cause (.ok result) = cause (.ok (result.1, result.2)))
  cases node with
  | absent => rfl
  | _ => exact hvalue

theorem cause_flattenAssignment (name : String) (value : Node) (pos pos' : Pos) :
    cause (flattenAssignment o vars name value.erase pos) =
      cause (flattenAssignment o vars name value pos') := by
  refine cause_bind (cause_checkDeclared o vars name pos pos') fun _ => ?_
  refine cause_bind (cause_flattenValue o vars value) fun result => ?_
  exact cause_bind (cause_checkLiteral name _ _ _ pos pos') fun _ => rfl

theorem cause_flattenCall (name : String) (args : List Node) (pos pos' : Pos) :
    cause (flattenCall o vars name (Node.eraseAll args) pos) =
      cause (flattenCall o vars name args pos') := by
  rcases args with _ | ⟨arg, _ | ⟨other, rest⟩⟩
  · rfl
  · rw [Node.eraseAll, Node.eraseAll]
    exact cause_map (cause_toOperand o vars arg) _
  · have hcount := Node.length_eraseAll (arg :: other :: rest)
    exact congrArg (fun n => Except.error (Fault.argumentCount name n)) hcount

/-- **A statement without positions is flattened to the same**, or rejected for the same reason. -/
theorem cause_outcome (node : Node) :
    cause (outcome o vars node.erase) = cause (outcome o vars node) := by
  cases node with
  | decl name typeName value pos =>
    have htype : cause (declaredType typeName Pos.unknown) = cause (declaredType typeName pos) := by
      unfold declaredType
      split <;> rfl
    rw [Node.erase, outcome_decl, outcome_decl]
    refine cause_bind htype fun type => ?_
    split
    · rfl
    · exact cause_bind (cause_flattenInitialiser o vars name type _ pos value) fun _ => rfl
  | assign name value pos =>
    rw [Node.erase]
    exact cause_map (cause_flattenAssignment o vars name value _ pos) _
  | call name args pos =>
    rw [Node.erase]
    exact cause_map (cause_flattenCall o vars name args _ pos) _
  | _ => rfl

theorem cause_flattenAll {β : Type} (keep : List Instr → Table DataType → β)
    (nodes : List Node) :
    cause ((flattenAll o vars (Node.eraseAll nodes)).2.map
        (fun instrs => keep instrs (flattenAll o vars (Node.eraseAll nodes)).1)) =
      cause ((flattenAll o vars nodes).2.map
        (fun instrs => keep instrs (flattenAll o vars nodes).1)) := by
  induction nodes generalizing vars keep with
  | nil => rfl
  | cons node nodes ih =>
    rw [Node.eraseAll, flattenAll_cons_map, flattenAll_cons_map]
    exact cause_bind (cause_outcome o vars node) fun result =>
      ih result.2 (fun instrs => keep (result.1 ++ instrs))

theorem cause_ofStatements (nodes : List Node) :
    cause (Program.ofStatements o (Node.eraseAll nodes)) = cause (Program.ofStatements o nodes) :=
  cause_flattenAll o Table.empty Program.mk nodes

end Erase

theorem agree_of_cause {x y : Except Error Program} (h : cause x = cause y) :
    Agree Eq (x.mapError Failure.rejected) (y.mapError Failure.rejected) := by
  cases x with
  | error e =>
    cases y with
    | error e' =>
      obtain ⟨fault, pos⟩ := e
      obtain ⟨fault', pos'⟩ := e'
      obtain rfl : fault = fault' := Except.error.inj h
      exact .fault fault pos pos'
    | ok p => cases h
  | ok p =>
    cases y with
    | error e' => cases h
    | ok p' => exact .ok (Except.ok.inj h)

end Tuple

/-! ## All stages -/

theorem generate_agree (o : Options) {nodes nodes' : List Node}
    (h : List.Forall₂ Node.Same nodes nodes') :
    Agree Eq (generate o nodes) (generate o nodes') := by
  have hcause : Tuple.cause (Tuple.Program.ofStatements o nodes) =
      Tuple.cause (Tuple.Program.ofStatements o nodes') := by
    rw [← Tuple.cause_ofStatements, Node.eraseAll_eq_of_forall₂ h, Tuple.cause_ofStatements]
  refine (Tuple.agree_of_cause hcause).bind ?_
  rintro tuple _ rfl
  exact .refl _

/-! ## Scanning -/

/-- Pieces that are the same but for those that are dropped. -/
inductive Respaced : List Piece → List Piece → Prop where
  | nil : Respaced [] []
  | keep {pieces pieces' : List Piece} (piece : Piece) :
      Respaced pieces pieces' → Respaced (piece :: pieces) (piece :: pieces')
  | left {piece : Piece} {pieces pieces' : List Piece} :
      piece.Skipped → Respaced pieces pieces' → Respaced (piece :: pieces) pieces'
  | right {piece : Piece} {pieces pieces' : List Piece} :
      piece.Skipped → Respaced pieces pieces' → Respaced pieces (piece :: pieces')

theorem Cuts.of_nextPiece? {piece : Piece} {pieces : List Piece}
    (h : nextPiece? (Piece.texts (piece :: pieces)) = some (piece, Piece.texts pieces))
    (hcuts : Cuts pieces []) : Cuts (piece :: pieces) [] := by
  refine .cons ?_ hcuts
  rw [List.append_nil]
  exact cut_of_nextPiece? h

/-- Two sources that differ only in the blanks and comments between their tokens. -/
def SameButSpacing (source source' : String) : Prop :=
  ∃ pieces pieces', source.toList = Piece.texts pieces ∧ Cuts pieces [] ∧
    source'.toList = Piece.texts pieces' ∧ Cuts pieces' [] ∧ Respaced pieces pieces'

theorem token?_agree (piece : Piece) (pos pos' : Pos) :
    Agree (Option.Rel Token.Same) (piece.token? pos) (piece.token? pos') := by
  cases piece with
  | string body =>
    rw [Piece.token?, Piece.token?]
    unfold unescape
    split
    · exact .ok (.some ⟨rfl, rfl⟩)
    · exact .fault _ _ _
    · exact .defect _
  | blank | comment => exact .ok .none
  | number | name | symbol => exact .ok (.some ⟨rfl, rfl⟩)

theorem scan_agree {pieces pieces' : List Piece} (h : Respaced pieces pieces')
    (hcuts : Cuts pieces []) (hcuts' : Cuts pieces' []) (pos pos' : Pos) :
    Agree (List.Forall₂ Token.Same) (scan pos (Piece.texts pieces))
      (scan pos' (Piece.texts pieces')) := by
  induction h generalizing pos pos' with
  | nil =>
    rw [Piece.texts_nil, scan, scan]
    exact .ok (.cons ⟨rfl, rfl⟩ .nil)
  | keep piece _ ih =>
    cases hcuts with
    | cons hcut hcuts =>
    cases hcuts' with
    | cons hcut' hcuts' =>
    rw [List.append_nil] at hcut hcut'
    rw [Piece.texts_cons, Piece.texts_cons, scan_of_cut hcut, scan_of_cut hcut']
    refine (token?_agree piece pos pos').bind ?_
    intro token? token?' ht
    refine (ih hcuts hcuts' _ _).bind ?_
    intro tokens tokens' hts
    cases ht with
    | none => exact .ok hts
    | some ht => exact .ok (.cons ht hts)
  | left hs _ ih =>
    cases hcuts with
    | cons hcut hcuts =>
    rw [List.append_nil] at hcut
    rw [Piece.texts_cons, scan_skip hcut hs]
    exact ih hcuts hcuts' _ _
  | right hs _ ih =>
    cases hcuts' with
    | cons hcut' hcuts' =>
    rw [List.append_nil] at hcut'
    rw [Piece.texts_cons, scan_skip hcut' hs]
    exact ih hcuts hcuts' _ _

/-- **Layout is immaterial.**  Tokens of the same kinds and lexemes at other places are parsed and
compiled to the same tuple program, register program and assembler text, or fail for the same
reason.  And so it is with sources that differ only in the blanks and comments between their
tokens. -/
theorem layout_immaterial (o : Options) :
    (∀ tokens tokens', List.Forall₂ Token.Same tokens tokens' →
      Agree Eq (Node.parse tokens >>= generate o) (Node.parse tokens' >>= generate o)) ∧
    ∀ source source', SameButSpacing source source' →
      Agree (fun c c' => c.toGeneration = c'.toGeneration) (compile o source)
        (compile o source') := by
  have hparse : ∀ {tokens tokens'}, List.Forall₂ Token.Same tokens tokens' →
      Agree (List.Forall₂ Node.Same) (Node.parse tokens) (Node.parse tokens') :=
    fun h => Node.parseFrom_agree .nil h
  constructor
  · intro tokens tokens' h
    refine (hparse h).bind ?_
    intro nodes nodes' hn
    exact generate_agree o hn
  · rintro source source' ⟨pieces, pieces', hs, hcuts, hs', hcuts', hr⟩
    have hscan := scan_agree hr hcuts hcuts' Pos.start Pos.start
    rw [← hs, ← hs'] at hscan
    refine Agree.bind hscan ?_
    intro tokens tokens' ht
    refine (hparse ht).bind ?_
    intro nodes nodes' hn
    refine (generate_agree o hn).bind ?_
    rintro g _ rfl
    exact .ok rfl

/-- A call written with nothing between its tokens. -/
def terse : List Piece :=
  [.name ['f'], .symbol .leftParen '(', .number ['1'], .symbol .rightParen ')',
    .symbol .semicolon ';']

/-- The same call with blanks, a line break and a comment. -/
def airy : List Piece :=
  [.name ['f'], .blank [' ', '\n'], .symbol .leftParen '(', .number ['1'], .blank ['\t'],
    .symbol .rightParen ')', .symbol .semicolon ';', .comment ['/', '/', ';']]

/-- The tokens of the call. -/
def callTokens : List Token :=
  [⟨.identifier, "f", ⟨1, 1⟩⟩, ⟨.leftParen, "(", ⟨1, 2⟩⟩, ⟨.intLiteral, "1", ⟨1, 3⟩⟩,
    ⟨.rightParen, ")", ⟨1, 4⟩⟩, ⟨.semicolon, ";", ⟨1, 5⟩⟩, ⟨.endOfText, "", ⟨1, 6⟩⟩]

/-- The call is compiled, from its tokens without positions to the same, and from both sources to
the same assembler text. -/
theorem layout_immaterial_call :
    (∃ g, (Node.parse callTokens >>= generate {}) = .ok g ∧
      (Node.parse (callTokens.map fun t => { t with pos := Pos.unknown }) >>= generate {}) =
        .ok g) ∧
    SameButSpacing "f(1);" "f \n(1\t);//;" ∧
    ∃ c c', compile {} "f(1);" = .ok c ∧ compile {} "f \n(1\t);//;" = .ok c' ∧
      c.assembly = c'.assembly := by
  have hterse : Cuts terse [] := by
    iterate 5 refine .of_nextPiece? (by decide) ?_
    exact .nil
  have hairy : Cuts airy [] := by
    iterate 8 refine .of_nextPiece? (by decide) ?_
    exact .nil
  have hspaced : Respaced terse airy :=
    .keep _ (.right trivial (.keep _ (.keep _ (.right trivial
      (.keep _ (.keep _ (.right trivial .nil)))))))
  have hspacing : SameButSpacing "f(1);" "f \n(1\t);//;" :=
    ⟨terse, airy, by decide, hterse, by decide, hairy, hspaced⟩
  have htokens : tokenize "f(1);" = .ok callTokens := by cbv
  obtain ⟨c, hc⟩ : ∃ c, compile {} "f(1);" = .ok c := by
    rw [compile, htokens]
    exact ⟨_, rfl⟩
  have hmoved : List.Forall₂ Token.Same callTokens
      (callTokens.map fun t => { t with pos := Pos.unknown }) := by
    iterate 6 refine .cons ⟨rfl, rfl⟩ ?_
    exact .nil
  have hg : (Node.parse callTokens >>= generate {}) = .ok _ := rfl
  have htwice := (layout_immaterial {}).1 _ _ hmoved
  have hspaced := (layout_immaterial {}).2 _ _ hspacing
  rw [hg] at htwice
  rw [hc] at hspaced
  obtain ⟨g, hg', rfl⟩ := htwice.exists_of_ok
  obtain ⟨c', hc', hsame⟩ := hspaced.exists_of_ok
  exact ⟨⟨_, hg, hg'⟩, hspacing, c, c', hc, hc', congrArg Generation.assembly hsame⟩

end Risclet
