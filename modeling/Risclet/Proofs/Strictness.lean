import Risclet.Proofs.Assembly.Symbols
import Risclet.Session

/-! # Compulsory declarations

Whether declarations are compulsory makes one difference: a name that is used without one is then
rejected.  Two runs are compared, with the same options but for that.

Where the strict run does not reject an undeclared name, every check of the two runs gives the same
outcome, so the runs agree to the end, in what they make or in the error that they report
(`Concurs`).  And where the permissive run accepts statements, the outcome of the strict run is
known exactly: it is the same, unless a statement uses a name that none before it declares, and then
it is the error for the first such use in the first such statement (`Statement.outcome_strict`,
`Statements.flattenAll_strict`).
-/
namespace Risclet

/-- The same options, but for whether declarations are compulsory. -/
def Options.withStrict (o : Options) (strict : Bool) : Options :=
  { o with strict }

@[simp] theorem Options.reserved_withStrict (o : Options) (strict : Bool) :
    (o.withStrict strict).reserved = o.reserved := rfl

/-! ## Uses of names -/

namespace Node

mutual
/-- Every name that is read in a tree, with its place. -/
def readings : Node → List (String × Pos)
  | .ident name pos => [(name, pos)]
  | .binary _ left right _ => readings left ++ readings right
  | .decl _ _ value _ | .assign _ value _ | .expr value _ => readings value
  | .call _ nodes _ | .program nodes => readingsAll nodes
  | _ => []

/-- Every name that is read in a list of trees, with its place. -/
def readingsAll : List Node → List (String × Pos)
  | [] => []
  | node :: nodes => readings node ++ readingsAll nodes
end

/-- The names that a statement assigns to or reads, with their places, in the order in which they
are looked up. -/
def usages : Node → List (String × Pos)
  | .assign name value pos => (name, pos) :: readings value
  | node => readings node

/-- The first use in a statement of a name that none of the statements `before` declares. -/
def undeclared? (before : List Node) (node : Node) : Option (String × Pos) :=
  node.usages.find? (fun u => decide (u.1 ∉ declaredNames before))

mutual
theorem map_fst_readings : ∀ node : Node, node.readings.map Prod.fst = node.names
  | .ident _ _ => by rw [readings, names]; rfl
  | .binary _ left right _ => by
    rw [readings, names, List.map_append, map_fst_readings left, map_fst_readings right]
  | .decl _ _ value _ => by rw [readings, names, map_fst_readings value]
  | .assign _ value _ => by rw [readings, names, map_fst_readings value]
  | .expr value _ => by rw [readings, names, map_fst_readings value]
  | .call _ nodes _ => by rw [readings, names, map_fst_readingsAll nodes]
  | .program nodes => by rw [readings, names, map_fst_readingsAll nodes]
  | .int _ _ | .str _ _ | .foreign _ | .absent => by simp [readings, names]

theorem map_fst_readingsAll : ∀ nodes : List Node,
    (readingsAll nodes).map Prod.fst = namesAll nodes
  | [] => by rw [readingsAll, namesAll]; rfl
  | node :: nodes => by
    rw [readingsAll, namesAll, List.map_append, map_fst_readings node, map_fst_readingsAll nodes]
end

theorem map_fst_usages (node : Node) : node.usages.map Prod.fst = node.uses := by
  cases node with
  | assign name value pos => rw [usages, uses, List.map_cons, map_fst_readings]
  | _ => exact map_fst_readings _

theorem undeclared?_eq_none {before : List Node} {node : Node} :
    node.undeclared? before = none ↔ ∀ name ∈ node.uses, name ∈ declaredNames before := by
  rw [undeclared?, List.find?_eq_none, ← map_fst_usages, List.forall_mem_map]
  simp

end Node

namespace Tuple

/-! ## Checks that agree -/

section Concurs
variable {α β : Type}

/-- Two outcomes of a check, with declarations compulsory and without: they are the same, unless the
first is the rejection of an undeclared name; the second never is. -/
structure Concurs (strict permissive : Except Error α) : Prop where
  same : strict = permissive ∨ ∃ name pos, strict = .error ⟨.undeclaredName name, pos⟩
  lenient : ∀ e, permissive = .error e → e.fault.kind ≠ .undeclared

theorem Concurs.ok (a : α) : Concurs (.ok a) (.ok a) :=
  ⟨.inl rfl, by rintro e ⟨⟩⟩

theorem Concurs.error {fault : Fault} (h : fault.kind ≠ .undeclared) (pos : Pos) :
    Concurs (.error ⟨fault, pos⟩ : Except Error α) (.error ⟨fault, pos⟩) := by
  refine ⟨.inl rfl, ?_⟩
  rintro e ⟨⟩
  exact h

/-- A sequence of checks agrees if each of them does. -/
theorem Concurs.bind {x y : Except Error α} {f g : α → Except Error β} (h : Concurs x y)
    (hf : ∀ a, Concurs (f a) (g a)) : Concurs (x >>= f) (y >>= g) := by
  obtain ⟨rfl | ⟨name, pos, rfl⟩, hlenient⟩ := h
  · cases x with
    | error e =>
      refine ⟨.inl rfl, ?_⟩
      rintro _ ⟨⟩
      exact hlenient e rfl
    | ok a => exact hf a
  · refine ⟨.inr ⟨name, pos, rfl⟩, ?_⟩
    cases y with
    | error e =>
      rintro _ ⟨⟩
      exact hlenient e rfl
    | ok a => exact (hf a).lenient

theorem Concurs.map {x y : Except Error α} (h : Concurs x y) (f : α → β) :
    Concurs (x.map f) (y.map f) := by
  have hbind : ∀ z : Except Error α, z.map f = z >>= fun a => .ok (f a) := by
    intro z
    cases z <;> rfl
  rw [hbind, hbind]
  exact h.bind fun a => .ok (f a)

end Concurs

section Functions
variable (o : Options) (vars : Table DataType)

theorem checkDeclared_concurs (name : String) (pos : Pos) :
    Concurs (checkDeclared (o.withStrict true) vars name pos)
      (checkDeclared (o.withStrict false) vars name pos) := by
  have hpermissive : checkDeclared (o.withStrict false) vars name pos = .ok () :=
    checkDeclared_eq_ok.mpr (by rintro ⟨⟩)
  rw [hpermissive, checkDeclared]
  split
  · exact ⟨.inr ⟨name, pos, rfl⟩, by rintro e ⟨⟩⟩
  · exact .ok ()

theorem toItem_concurs (node : Node) :
    Concurs (toItem (o.withStrict true) vars node) (toItem (o.withStrict false) vars node) := by
  cases node with
  | int value pos =>
    rw [toItem, toItem]
    split
    · exact .ok _
    · exact .error (by simp [Fault.kind]) pos
  | str value pos => exact .ok _
  | ident name pos => exact (checkDeclared_concurs o vars name pos).map _
  | _ => exact .error (by simp [Fault.kind]) _

/-- A node is an operand if it is an item other than a string. -/
theorem toOperand_eq_bind (node : Node) :
    toOperand o vars node = toItem o vars node >>= fun item =>
      if item.literalType? = some .string then .error ⟨.stringOperand, node.pos⟩
      else .ok item := by
  rw [toOperand]
  cases hi : toItem o vars node with
  | error e => rfl
  | ok item => cases item <;> simp [Item.literalType?]

theorem toOperand_concurs (node : Node) :
    Concurs (toOperand (o.withStrict true) vars node)
      (toOperand (o.withStrict false) vars node) := by
  rw [toOperand_eq_bind, toOperand_eq_bind]
  refine (toItem_concurs o vars node).bind fun item => ?_
  split
  · exact .error (by simp [Fault.kind]) _
  · exact .ok item

theorem flattenValue_concurs (node : Node) :
    Concurs (flattenValue (o.withStrict true) vars node)
      (flattenValue (o.withStrict false) vars node) := by
  rw [flattenValue.eq_def, flattenValue.eq_def]
  split
  · refine (toOperand_concurs o vars _).bind fun l => ?_
    exact (toOperand_concurs o vars _).bind fun r => .ok _
  · exact (toItem_concurs o vars node).map _

theorem checkLiteral_concurs (name : String) (declared : Option DataType) (value : Item)
    (first : Bool) (pos : Pos) :
    Concurs (checkLiteral name declared value first pos)
      (checkLiteral name declared value first pos) := by
  refine ⟨.inl rfl, fun e he => ?_⟩
  rw [checkLiteral.eq_def] at he
  split at he
  · cases he
  · split at he
    · cases he; simp [Fault.kind]
    · split at he
      · cases he
      · split at he <;> cases he
        simp [Fault.kind]

theorem flattenInitialiser_concurs (name : String) (type : DataType) (pos : Pos) (node : Node) :
    Concurs (flattenInitialiser (o.withStrict true) vars name type pos node)
      (flattenInitialiser (o.withStrict false) vars name type pos node) := by
  rw [flattenInitialiser.eq_def, flattenInitialiser.eq_def]
  split
  · exact .ok _
  · refine (flattenValue_concurs o vars node).bind fun result => ?_
    exact (checkLiteral_concurs _ _ _ _ _).bind fun _ => .ok _

theorem flattenAssignment_concurs (name : String) (value : Node) (pos : Pos) :
    Concurs (flattenAssignment (o.withStrict true) vars name value pos)
      (flattenAssignment (o.withStrict false) vars name value pos) := by
  refine (checkDeclared_concurs o vars name pos).bind fun _ => ?_
  refine (flattenValue_concurs o vars value).bind fun result => ?_
  exact (checkLiteral_concurs _ _ _ _ _).bind fun _ => .ok _

theorem flattenCall_concurs (name : String) (args : List Node) (pos : Pos) :
    Concurs (flattenCall (o.withStrict true) vars name args pos)
      (flattenCall (o.withStrict false) vars name args pos) := by
  rcases args with _ | ⟨arg, _ | ⟨other, rest⟩⟩
  · exact .error (by simp [Fault.kind]) pos
  · exact (toOperand_concurs o vars arg).map _
  · exact .error (by simp [Fault.kind]) pos

/-- **The two checks of a statement agree.** -/
theorem outcome_concurs (node : Node) :
    Concurs (outcome (o.withStrict true) vars node) (outcome (o.withStrict false) vars node) := by
  cases node with
  | decl name typeName value pos =>
    have htype : Concurs (declaredType typeName pos) (declaredType typeName pos) := by
      rw [declaredType]
      split
      · exact .ok _
      · exact .error (by simp [Fault.kind]) pos
    rw [outcome_decl, outcome_decl]
    refine htype.bind fun type => ?_
    rw [Options.reserved_withStrict, Options.reserved_withStrict]
    split
    · exact .error (by simp [Fault.kind]) pos
    · exact (flattenInitialiser_concurs o vars name type pos value).bind fun _ => .ok _
  | assign name value pos => exact (flattenAssignment_concurs o vars name value pos).map _
  | call name args pos => exact (flattenCall_concurs o vars name args pos).map _
  | _ => exact .error (by simp [Fault.kind]) _

/-- What is kept of a run over statements, of their instructions and of the table behind them, comes
from the first statement and from a run over the others. -/
theorem flattenAll_cons_map {β : Type} (keep : List Instr → Table DataType → β) (node : Node)
    (nodes : List Node) :
    (flattenAll o vars (node :: nodes)).2.map
        (fun instrs => keep instrs (flattenAll o vars (node :: nodes)).1) =
      outcome o vars node >>= fun result =>
        (flattenAll o result.2 nodes).2.map
          (fun instrs => keep (result.1 ++ instrs) (flattenAll o result.2 nodes).1) := by
  rw [flattenAll, flatten_eq_outcome]
  cases outcome o vars node with
  | error e => rfl
  | ok result =>
    obtain ⟨code, next⟩ := result
    simp only [Outcome.bind_ok]
    cases (flattenAll o next nodes).2 <;> rfl

/-- **The two runs over statements agree**, whatever is kept of them. -/
theorem flattenAll_concurs {β : Type} (keep : List Instr → Table DataType → β)
    (nodes : List Node) :
    Concurs
      ((flattenAll (o.withStrict true) vars nodes).2.map
        (fun instrs => keep instrs (flattenAll (o.withStrict true) vars nodes).1))
      ((flattenAll (o.withStrict false) vars nodes).2.map
        (fun instrs => keep instrs (flattenAll (o.withStrict false) vars nodes).1)) := by
  induction nodes generalizing vars keep with
  | nil => exact .ok _
  | cons node nodes ih =>
    rw [flattenAll_cons_map, flattenAll_cons_map]
    exact (outcome_concurs o vars node).bind fun result =>
      ih result.2 (fun instrs => keep (result.1 ++ instrs))

/-- A tuple program is what is kept of the run over all statements. -/
theorem ofStatements_eq_map (nodes : List Node) :
    Program.ofStatements o nodes = (flattenAll o Table.empty nodes).2.map
      (fun instrs => ⟨instrs, (flattenAll o Table.empty nodes).1⟩) := rfl

theorem ofStatements_concurs (nodes : List Node) :
    Concurs (Program.ofStatements (o.withStrict true) nodes)
      (Program.ofStatements (o.withStrict false) nodes) :=
  flattenAll_concurs o Table.empty Program.mk nodes

end Functions

/-! ## Strict outcomes of what is accepted permissively -/

section Verdict
variable {α β : Type} {vars : Table DataType}

/-- What compulsory declarations make of a result in which names are used: the first of them that is
not declared is rejected. -/
def verdict (vars : Table DataType) (usages : List (String × Pos)) (a : α) : Except Error α :=
  match usages.find? (fun u => !vars.contains u.1) with
  | none => .ok a
  | some u => .error ⟨.undeclaredName u.1, u.2⟩

/-- Names that are used one after the other are looked up in that order. -/
theorem verdict_bind {first second : List (String × Pos)} {a : α} {b : β}
    {f : α → Except Error β} (hf : f a = verdict vars second b) :
    (verdict vars first a >>= f) = verdict vars (first ++ second) b := by
  rw [verdict] at hf ⊢
  rw [verdict, List.find?_append]
  cases first.find? (fun u => !vars.contains u.1) with
  | none => exact hf
  | some u => rfl

theorem verdict_bind_ok {usages : List (String × Pos)} {a : α} {b : β} {f : α → Except Error β}
    (hf : f a = .ok b) : (verdict vars usages a >>= f) = verdict vars usages b := by
  have hbind : (verdict vars usages a >>= f) = verdict vars (usages ++ []) b := verdict_bind hf
  rwa [List.append_nil] at hbind

theorem checkDeclared_strict (o : Options) (vars : Table DataType) (name : String) (pos : Pos) :
    checkDeclared (o.withStrict true) vars name pos = verdict vars [(name, pos)] () := by
  unfold checkDeclared verdict
  rw [List.find?_singleton]
  cases vars.contains name <;> rfl

end Verdict

section Strict
variable {o : Options} {vars after last : Table DataType} {node : Node} {nodes before : List Node}
  {code instrs : List Instr} {item : Item}

theorem Operand.toItem_strict (h : Operand (o.withStrict false) vars node item) :
    toItem (o.withStrict true) vars node = verdict vars node.readings item := by
  cases h with
  | int hv => simp [toItem, hv, Node.readings, verdict]
  | @ident name pos _ =>
    have hmap : (verdict vars [(name, pos)] ()).map (fun _ => Item.ident name) =
        verdict vars [(name, pos)] (Item.ident name) := verdict_bind_ok rfl
    rw [toItem, checkDeclared_strict, hmap, Node.readings]

theorem Operand.toOperand_strict (h : Operand (o.withStrict false) vars node item) :
    toOperand (o.withStrict true) vars node = verdict vars node.readings item := by
  rw [toOperand_eq_bind, h.toItem_strict]
  refine verdict_bind_ok (if_neg ?_)
  cases h <;> simp [Item.literalType?]

theorem Value.flattenValue_strict (h : Value (o.withStrict false) vars node code item) :
    flattenValue (o.withStrict true) vars node = verdict vars node.readings (code, item) := by
  cases h with
  | operand hop =>
    have hitem := hop.toItem_strict
    have hmap : (verdict vars node.readings item).map (fun item => (([] : List Instr), item)) =
        verdict vars node.readings ([], item) := verdict_bind_ok rfl
    cases hop <;> rw [flattenValue, hitem, hmap] <;> simp
  | string => simp [flattenValue, toItem, Node.readings, verdict]
  | operation hl hr =>
    rw [flattenValue, hl.toOperand_strict, Node.readings]
    refine verdict_bind ?_
    rw [hr.toOperand_strict]
    exact verdict_bind_ok rfl

/-- **A strict check reports the first use of an undeclared name** in a statement that is accepted
permissively. -/
theorem Statement.outcome_strict (h : Statement (o.withStrict false) vars node code after) :
    outcome (o.withStrict true) vars node = verdict vars node.usages (code, after) := by
  cases h with
  | @declare name typeName pos type ht hr =>
    have haccepted : outcome (o.withStrict true) vars (.decl name typeName .absent pos) = .ok _ :=
      outcome_eq_ok.mpr (.declare ht hr)
    rw [haccepted]
    simp [Node.usages, Node.readings, verdict]
  | @initialise name typeName value pos type first item ht hr hv hs =>
    have hne : value ≠ .absent := by
      rintro rfl
      rcases hv with ⟨⟨⟩⟩
    have hr' : ¬ (o.withStrict true).reserved.contains name = true := by
      simpa only [List.contains_iff_mem, Options.reserved_withStrict] using hr
    have hinit : flattenInitialiser (o.withStrict true) vars name type pos value =
        verdict vars value.readings (first, item) := by
      rw [flattenInitialiser.eq_def]
      split
      · exact absurd rfl hne
      · rw [hv.flattenValue_strict]
        refine verdict_bind_ok ?_
        simp [checkLiteral_eq_ok.mpr hs]
    have husages : (Node.decl name typeName value pos).usages = value.readings := by
      rw [Node.usages, Node.readings]
      simp
    rw [husages, outcome_decl, declaredType_eq_ok.mpr ht, Outcome.bind_ok, if_neg hr', hinit]
    exact verdict_bind_ok rfl
  | @assign name value pos first item hu hv hs =>
    have husages : (Node.assign name value pos).usages = [(name, pos)] ++ value.readings := rfl
    have hcode : flattenAssignment (o.withStrict true) vars name value pos =
        verdict vars ([(name, pos)] ++ value.readings) (first ++ [.assign name item]) := by
      rw [flattenAssignment, checkDeclared_strict]
      refine verdict_bind ?_
      rw [hv.flattenValue_strict]
      refine verdict_bind_ok ?_
      simp [checkLiteral_eq_ok.mpr hs]
    rw [husages, outcome, flatten, hcode]
    exact verdict_bind_ok rfl
  | @call name arg pos item hop =>
    have husages : (Node.call name [arg] pos).usages = arg.readings := by
      rw [Node.usages, Node.readings, Node.readingsAll, Node.readingsAll, List.append_nil]
      simp
    have hcode : flattenCall (o.withStrict true) vars name [arg] pos =
        verdict vars arg.readings [.call name [item]] := by
      rw [flattenCall, hop.toOperand_strict]
      exact verdict_bind_ok rfl
    rw [husages, outcome, flatten, hcode]
    exact verdict_bind_ok rfl

/-- Looking a name up in the table is looking it up among the names declared before. -/
theorem verdict_eq_undeclared? {α : Type} (hvars : vars.keys = Node.declaredNames before)
    (node : Node) (a : α) :
    verdict vars node.usages a =
      match node.undeclared? before with
      | none => .ok a
      | some u => .error ⟨.undeclaredName u.1, u.2⟩ := by
  have hpred : (fun u : String × Pos => !vars.contains u.1) =
      fun u => decide (u.1 ∉ Node.declaredNames before) := by
    funext u
    rw [← hvars, decide_not, ← Bool.eq_iff_iff.mpr (Table.contains_iff_mem_keys.trans
      decide_eq_true_iff.symm)]
  rw [verdict, hpred]
  rfl

/-- **A strict run reports the first statement that uses an undeclared name**, of statements that
are accepted permissively; if there is none, it gives the same instructions and the same table. -/
theorem Statements.flattenAll_strict (h : Statements (o.withStrict false) vars nodes instrs last)
    (hvars : vars.keys = Node.declaredNames before) :
    flattenAll (o.withStrict true) vars nodes = (last, .ok instrs) ∨
      ∃ (i : Nat) (node : Node) (name : String) (pos : Pos), nodes[i]? = some node ∧
        (∀ j < i, ∀ other : Node, nodes[j]? = some other →
          other.undeclared? (before ++ nodes.take j) = none) ∧
        node.undeclared? (before ++ nodes.take i) = some (name, pos) ∧
        (flattenAll (o.withStrict true) vars nodes).2 = .error ⟨.undeclaredName name, pos⟩ := by
  induction h generalizing before with
  | nil => exact .inl rfl
  | @cons vars next last node nodes code rest hs _ ih =>
    have houtcome := hs.outcome_strict
    rw [verdict_eq_undeclared? hvars] at houtcome
    cases hu : node.undeclared? before with
    | some u =>
      obtain ⟨name, pos⟩ := u
      rw [hu] at houtcome
      refine .inr ⟨0, node, name, pos, rfl, by simp, by simpa using hu, ?_⟩
      rw [flattenAll, flatten_eq_outcome, houtcome]
    | none =>
      rw [hu] at houtcome
      rcases ih (hs.keys_eq hvars) with hrest | ⟨i, other, name, pos, hi, hearlier, hother, herror⟩
      · exact .inl (by simp [flattenAll, flatten_eq_outcome, houtcome, hrest])
      · refine .inr ⟨i + 1, other, name, pos, hi, ?_, by simpa using hother, ?_⟩
        · intro j hj earlier hget
          cases j with
          | zero =>
            obtain rfl : node = earlier := Option.some.inj hget
            simpa using hu
          | succ j => simpa using hearlier j (by omega) earlier hget
        · simp [flattenAll, flatten_eq_outcome, houtcome, herror]

end Strict
end Tuple

/-! ## The stages behind -/

theorem Lower.lowerAll_withStrict (o : Options) (b : Bool) (st : State)
    (instrs : List Tuple.Instr) : lowerAll (o.withStrict b) st instrs = lowerAll o st instrs := by
  induction instrs generalizing st with
  | nil => rfl
  | cons instr instrs ih =>
    have hinstr : lowerInstr (o.withStrict b) st instr = lowerInstr o st instr := by
      cases instr <;> rfl
    rw [lowerAll, lowerAll, hinstr]
    split
    · rfl
    · simp only [ih]

theorem Lower.ofTuple_withStrict (o : Options) (b : Bool) (p : Tuple.Program) :
    Program.ofTuple (o.withStrict b) p = Program.ofTuple o p := by
  unfold Program.ofTuple build
  simp only [lowerAll_withStrict]

theorem Assembly.emit_withStrict (o : Options) (b : Bool) (p : Lower.Program) :
    emit (o.withStrict b) p = emit o p := rfl

/-- What is generated depends on compulsory declarations through the tuple program only. -/
theorem generate_withStrict {o : Options} {nodes : List Node}
    (h : Tuple.Program.ofStatements (o.withStrict true) nodes =
      Tuple.Program.ofStatements (o.withStrict false) nodes) :
    generate (o.withStrict true) nodes = generate (o.withStrict false) nodes ∧
      Session.generateAll (o.withStrict true) nodes =
        Session.generateAll (o.withStrict false) nodes := by
  constructor
  · simp only [generate, h, Lower.ofTuple_withStrict, Assembly.emit_withStrict]
  · simp only [Session.generateAll, Session.buildTuple, Session.buildLower, h,
      Lower.ofTuple_withStrict, Assembly.emit_withStrict]

theorem generate_of_rejected {o : Options} {nodes : List Node} {e : Error}
    (h : Tuple.Program.ofStatements o nodes = .error e) :
    generate o nodes = .error (.rejected e) := by
  simp [generate, h]

/-- **Compulsory declarations reject undeclared names and change nothing else.**  Take the same
options with declarations compulsory and without.  If the strict tuple stage does not reject an
undeclared name, the two runs of all stages have the same outcome, made or failed, and leave the
same programs behind.  The permissive tuple stage never rejects an undeclared name.  And if the
permissive run succeeds and the strict one fails, it fails because of a name that is not declared:
in the first statement that uses a name which no statement before it declares, and at the first such
use. -/
theorem strict_rejects_undeclared_only (o : Options) (nodes : List Node) :
    ((∀ e, Tuple.Program.ofStatements (o.withStrict true) nodes = .error e →
        e.fault.kind ≠ .undeclared) →
      generate (o.withStrict true) nodes = generate (o.withStrict false) nodes ∧
        Session.generateAll (o.withStrict true) nodes =
          Session.generateAll (o.withStrict false) nodes) ∧
      (∀ e, Tuple.Program.ofStatements (o.withStrict false) nodes = .error e →
        e.fault.kind ≠ .undeclared) ∧
      ∀ g f, generate (o.withStrict false) nodes = .ok g →
        generate (o.withStrict true) nodes = .error f →
        ∃ (i : Nat) (node : Node) (name : String) (pos : Pos), nodes[i]? = some node ∧
          (∀ j < i, ∀ other : Node, nodes[j]? = some other →
            ∀ name ∈ other.uses, name ∈ Node.declaredNames (nodes.take j)) ∧
          node.undeclared? (nodes.take i) = some (name, pos) ∧
          f = .fault (.undeclaredName name) pos := by
  obtain ⟨hsame, hlenient⟩ := Tuple.ofStatements_concurs o nodes
  refine ⟨fun hdeclared => ?_, hlenient, fun g f hg hf => ?_⟩
  · rcases hsame with hsame | ⟨name, pos, herror⟩
    · exact generate_withStrict hsame
    · exact absurd rfl (hdeclared _ herror)
  · obtain ⟨hp, -, -⟩ := generate_eq_ok.mp hg
    have hs := Tuple.ofStatements_eq_ok.mp hp
    rcases hs.flattenAll_strict (show _ = Node.declaredNames [] from rfl) with
      haccepted | ⟨i, node, name, pos, hi, hearlier, hnode, herror⟩
    · -- Then the strict run makes what the permissive one makes, and does not fail.
      have hstrict := Tuple.ofStatements_eq_ok.mpr (Tuple.flattenAll_eq_ok.mp haccepted)
      rw [(generate_withStrict (hstrict.trans hp.symm)).1, hg] at hf
      cases hf
    · have hrejected : Tuple.Program.ofStatements (o.withStrict true) nodes =
          .error ⟨.undeclaredName name, pos⟩ := by
        rw [Tuple.ofStatements_eq_map, herror, Outcome.map_error]
      rw [generate_of_rejected hrejected] at hf
      refine ⟨i, node, name, pos, hi, fun j hj other hother => ?_, by simpa using hnode,
        (Except.error.inj hf).symm⟩
      exact Node.undeclared?_eq_none.mp (by simpa using hearlier j hj other hother)

/-- A program that declares a variable by its own value, and uses a name without declaration behind
it. -/
def selfReference : List Node :=
  [.decl "n" "Int32" (.int 1 ⟨1, 12⟩) ⟨1, 1⟩,
    .decl "m" "Int32" (.binary (.arith .add) (.ident "n" ⟨2, 12⟩) (.ident "m" ⟨2, 16⟩) ⟨2, 12⟩)
      ⟨2, 1⟩,
    .call "Output" [.ident "k" ⟨3, 8⟩] ⟨3, 1⟩]

/-- It is accepted permissively, and rejected strictly for the name in its own declaration. -/
theorem strict_rejects_undeclared_only_self :
    ∃ g f, generate (Options.withStrict {} false) selfReference = .ok g ∧
      generate (Options.withStrict {} true) selfReference = .error f ∧
      ∃ (i : Nat) (node : Node) (name : String) (pos : Pos), selfReference[i]? = some node ∧
        node.undeclared? (selfReference.take i) = some (name, pos) ∧
        f = .fault (.undeclaredName name) pos ∧ pos = ⟨2, 16⟩ := by
  have hg : generate (Options.withStrict {} false) selfReference = .ok _ := rfl
  have hf : generate (Options.withStrict {} true) selfReference = .error _ := rfl
  obtain ⟨i, node, name, pos, hi, -, hnode, herror⟩ :=
    (strict_rejects_undeclared_only {} selfReference).2.2 _ _ hg hf
  refine ⟨_, _, hg, hf, i, node, name, pos, hi, hnode, herror, ?_⟩
  cases herror
  rfl

end Risclet
