import Risclet.Proofs.Outcome
import Risclet.Tuple.Build

/-! # The rules of flattening

What `flatten` accepts, and what it makes of it, as rules.  The judgements follow the parts of a
statement:

* `Operand o vars node item`: `node` can go into a register, as `item`;
* `Value o vars node code item`: `node` can be stored, once `code` has put it into `item`;
* `Statement o vars node code after`: `node` is a statement with the instructions `code`, and
  `after` is the table behind it;
* `Statements`: the same for a list of statements.

Main statements: the functions succeed exactly where the rules apply, and with the same outcome
(`flatten_eq_ok`, `ofStatements_eq_ok`).  Everything else about accepted programs is proved by
induction on `Statements`, one case for each rule.
-/
namespace Risclet
namespace Tuple

section Rules
variable (o : Options) (vars : Table DataType)

/-- A name that may be read or assigned: where declarations are compulsory, it has one. -/
def Usable (name : String) : Prop :=
  o.strict = true → vars.contains name = true

/-- A node that can be loaded into a register, and its item. -/
inductive Operand : Node → Item → Prop where
  | int {value : Int} {pos : Pos} : IsInt32 value → Operand (.int value pos) (.int value)
  | ident {name : String} {pos : Pos} : Usable o vars name → Operand (.ident name pos) (.ident name)

/-- A node that can be stored, the instructions that compute it, and the item that then holds it. -/
inductive Value : Node → List Instr → Item → Prop where
  | operand {node : Node} {item : Item} : Operand o vars node item → Value node [] item
  | string {value : String} {pos : Pos} : Value (.str value pos) [] (.str value)
  | operation {op : Operator} {left right : Node} {pos : Pos} {l r : Item} :
      Operand o vars left l → Operand o vars right r →
      Value (.binary op left right pos) [.binary op l r 0] (.temp 0)

/-- An item that can be stored into a variable of type `declared`: a literal has that type, and a
string comes with the first declaration. -/
def Storable (declared : Option DataType) (first : Bool) (value : Item) : Prop :=
  ∀ literal, value.literalType? = some literal →
    (literal = .string → first = true) ∧ ∀ type, declared = some type → type = literal

/-- A statement, its instructions, and the table after it. -/
inductive Statement : Node → List Instr → Table DataType → Prop where
  | declare {name typeName : String} {pos : Pos} {type : DataType} :
      DataType.ofName? typeName = some type → name ∉ o.reserved →
      Statement (.decl name typeName .absent pos) [.declare name type .absent]
        (declare vars name type)
  | initialise {name typeName : String} {node : Node} {pos : Pos} {type : DataType}
      {code : List Instr} {item : Item} :
      DataType.ofName? typeName = some type → name ∉ o.reserved → Value o vars node code item →
      Storable (some ((vars.get? name).getD type)) (!vars.contains name) item →
      Statement (.decl name typeName node pos) (code ++ [.declare name type item])
        (declare vars name type)
  | assign {name : String} {node : Node} {pos : Pos} {code : List Instr} {item : Item} :
      Usable o vars name → Value o vars node code item → Storable (vars.get? name) false item →
      Statement (.assign name node pos) (code ++ [.assign name item]) vars
  | call {name : String} {arg : Node} {pos : Pos} {item : Item} :
      Operand o vars arg item → Statement (.call name [arg] pos) [.call name [item]] vars

end Rules

/-- Statements in order, their instructions, and the table after them. -/
inductive Statements (o : Options) :
    Table DataType → List Node → List Instr → Table DataType → Prop where
  | nil {vars : Table DataType} : Statements o vars [] [] vars
  | cons {vars next last : Table DataType} {node : Node} {nodes : List Node}
      {code rest : List Instr} :
      Statement o vars node code next → Statements o next nodes rest last →
      Statements o vars (node :: nodes) (code ++ rest) last

/-! ## The functions follow the rules -/

section Functions
variable {o : Options} {vars : Table DataType}

theorem checkDeclared_eq_ok {name : String} {pos : Pos} :
    checkDeclared o vars name pos = .ok () ↔ Usable o vars name := by
  unfold checkDeclared Usable
  cases o.strict <;> cases vars.contains name <;> simp

theorem toItem_eq_ok {node : Node} {item : Item} :
    toItem o vars node = .ok item ↔
      Operand o vars node item ∨ ∃ value pos, node = .str value pos ∧ item = .str value := by
  constructor
  · intro h
    cases node with
    | int value pos =>
      rw [toItem] at h
      split at h
      · next hv => cases h; exact .inl (.int hv)
      · cases h
    | str value pos => cases h; exact .inr ⟨value, pos, rfl, rfl⟩
    | ident name pos =>
      obtain ⟨_, hu, rfl⟩ := Outcome.map_eq_ok.mp h
      exact .inl (.ident (checkDeclared_eq_ok.mp hu))
    | _ => cases h
  · rintro (h | ⟨value, pos, rfl, rfl⟩)
    · cases h with
      | int hv => simp [toItem, hv]
      | ident hu => simp [toItem, checkDeclared_eq_ok.mpr hu]
    · rfl

theorem toOperand_eq_ok {node : Node} {item : Item} :
    toOperand o vars node = .ok item ↔ Operand o vars node item := by
  constructor
  · intro h
    rw [toOperand] at h
    split at h
    · cases h
    · next hn =>
      rcases toItem_eq_ok.mp h with hop | ⟨value, pos, rfl, rfl⟩
      · exact hop
      · exact absurd h (hn value)
  · intro h
    have hi := toItem_eq_ok.mpr (.inl h)
    cases h <;> simp [toOperand, hi]

theorem flattenValue_eq_ok {node : Node} {code : List Instr} {item : Item} :
    flattenValue o vars node = .ok (code, item) ↔ Value o vars node code item := by
  constructor
  · intro h
    rw [flattenValue.eq_def] at h
    split at h
    · obtain ⟨l, hl, h⟩ := Outcome.bind_eq_ok.mp h
      obtain ⟨r, hr, h⟩ := Outcome.bind_eq_ok.mp h
      cases h
      exact .operation (toOperand_eq_ok.mp hl) (toOperand_eq_ok.mp hr)
    · obtain ⟨i, hi, h⟩ := Outcome.map_eq_ok.mp h
      cases h
      rcases toItem_eq_ok.mp hi with hop | ⟨value, pos, rfl, rfl⟩
      · exact .operand hop
      · exact .string
  · intro h
    cases h with
    | operand hop =>
      have hi := toItem_eq_ok.mpr (.inl hop)
      cases hop <;> simp [flattenValue, hi]
    | string => rfl
    | operation hl hr =>
      simp [flattenValue, toOperand_eq_ok.mpr hl, toOperand_eq_ok.mpr hr]

theorem checkLiteral_eq_ok {name : String} {declared : Option DataType} {value : Item}
    {first : Bool} {pos : Pos} :
    checkLiteral name declared value first pos = .ok () ↔ Storable declared first value := by
  unfold checkLiteral Storable
  cases value.literalType? with
  | none => simp
  | some literal =>
    cases declared with
    | none => cases first <;> simp
    | some type => cases first <;> by_cases hs : literal = .string <;> simp [hs]

/-- The initialiser of a declaration is missing, or it is a value that can be stored. -/
theorem flattenInitialiser_eq_ok {name : String} {type : DataType} {pos : Pos} {node : Node}
    {code : List Instr} {item : Item} :
    flattenInitialiser o vars name type pos node = .ok (code, item) ↔
      (node = .absent ∧ code = [] ∧ item = .absent) ∨
      (Value o vars node code item ∧
        Storable (some ((vars.get? name).getD type)) (!vars.contains name) item) := by
  have habsent : ¬ Value o vars .absent code item := by rintro (h | _ | _); cases h
  rw [flattenInitialiser.eq_def]
  split
  · simp only [habsent, false_and, or_false, true_and, Except.ok.injEq, Prod.mk.injEq]
    exact ⟨fun ⟨h, h'⟩ => ⟨h.symm, h'.symm⟩, fun ⟨h, h'⟩ => ⟨h.symm, h'.symm⟩⟩
  · next hn =>
    constructor
    · intro h
      obtain ⟨⟨code', item'⟩, hv, h⟩ := Outcome.bind_eq_ok.mp h
      obtain ⟨_, hc, h⟩ := Outcome.bind_eq_ok.mp h
      cases h
      exact .inr ⟨flattenValue_eq_ok.mp hv, checkLiteral_eq_ok.mp hc⟩
    · rintro (⟨rfl, -, -⟩ | ⟨hv, hc⟩)
      · exact absurd rfl hn
      · simp [flattenValue_eq_ok.mpr hv, checkLiteral_eq_ok.mpr hc]

theorem declaredType_eq_ok {typeName : String} {pos : Pos} {type : DataType} :
    declaredType typeName pos = .ok type ↔ DataType.ofName? typeName = some type := by
  unfold declaredType
  cases DataType.ofName? typeName <;> simp

/-- A declaration is accepted if its type exists, its name is free and its initialiser is one; the
table after it has the name. -/
theorem flattenDeclaration_eq_ok {name typeName : String} {node : Node} {pos : Pos}
    {instrs : List Instr} {after : Table DataType} :
    flattenDeclaration o vars name typeName node pos = (after, .ok instrs) ↔
      ∃ type code item, declaredType typeName pos = .ok type ∧ name ∉ o.reserved ∧
        flattenInitialiser o vars name type pos node = .ok (code, item) ∧
        after = declare vars name type ∧ instrs = code ++ [.declare name type item] := by
  unfold flattenDeclaration
  constructor
  · intro h
    split at h
    · cases h
    · next type ht =>
      split at h
      · cases h
      · next hr =>
        split at h
        · cases h
        · next code item hi =>
          cases h
          exact ⟨type, code, item, ht, by simpa using hr, hi, rfl, rfl⟩
  · rintro ⟨type, code, item, ht, hr, hi, rfl, rfl⟩
    simp [ht, hr, hi]

theorem flattenAssignment_eq_ok {name : String} {node : Node} {pos : Pos} {instrs : List Instr} :
    flattenAssignment o vars name node pos = .ok instrs ↔
      Usable o vars name ∧ ∃ code item, Value o vars node code item ∧
        Storable (vars.get? name) false item ∧ instrs = code ++ [.assign name item] := by
  constructor
  · intro h
    obtain ⟨_, hu, h⟩ := Outcome.bind_eq_ok.mp h
    obtain ⟨⟨code, item⟩, hv, h⟩ := Outcome.bind_eq_ok.mp h
    obtain ⟨_, hs, h⟩ := Outcome.bind_eq_ok.mp h
    exact ⟨checkDeclared_eq_ok.mp hu, code, item, flattenValue_eq_ok.mp hv,
      checkLiteral_eq_ok.mp hs, (Except.ok.inj h).symm⟩
  · rintro ⟨hu, code, item, hv, hs, rfl⟩
    simp [flattenAssignment, checkDeclared_eq_ok.mpr hu, flattenValue_eq_ok.mpr hv,
      checkLiteral_eq_ok.mpr hs]

theorem flattenCall_eq_ok {name : String} {args : List Node} {pos : Pos} {instrs : List Instr} :
    flattenCall o vars name args pos = .ok instrs ↔
      ∃ arg item, args = [arg] ∧ Operand o vars arg item ∧ instrs = [.call name [item]] := by
  constructor
  · intro h
    rw [flattenCall.eq_def] at h
    split at h
    · next arg =>
      obtain ⟨item, hop, rfl⟩ := Outcome.map_eq_ok.mp h
      exact ⟨arg, item, rfl, toOperand_eq_ok.mp hop, rfl⟩
    · cases h
  · rintro ⟨arg, item, rfl, hop, rfl⟩
    simp [flattenCall, toOperand_eq_ok.mpr hop]

/-- **Flattening follows the rules.** -/
theorem flatten_eq_ok {node : Node} {code : List Instr} {after : Table DataType} :
    flatten o vars node = (after, .ok code) ↔ Statement o vars node code after := by
  constructor
  · intro h
    cases node with
    | decl name typeName initialiser pos =>
      obtain ⟨type, code, item, ht, hr, hi, rfl, rfl⟩ := flattenDeclaration_eq_ok.mp h
      have ht := declaredType_eq_ok.mp ht
      rcases flattenInitialiser_eq_ok.mp hi with ⟨rfl, rfl, rfl⟩ | ⟨hv, hs⟩
      · exact .declare ht hr
      · exact .initialise ht hr hv hs
    | assign name value pos =>
      obtain ⟨rfl, hcode⟩ := Prod.mk.inj h
      obtain ⟨hu, code, item, hv, hs, rfl⟩ := flattenAssignment_eq_ok.mp hcode
      exact .assign hu hv hs
    | call name args pos =>
      obtain ⟨rfl, hcode⟩ := Prod.mk.inj h
      obtain ⟨arg, item, rfl, hop, rfl⟩ := flattenCall_eq_ok.mp hcode
      exact .call hop
    | _ => cases h
  · intro h
    cases h with
    | declare ht hr =>
      exact flattenDeclaration_eq_ok.mpr ⟨_, [], .absent, declaredType_eq_ok.mpr ht, hr,
        flattenInitialiser_eq_ok.mpr (.inl ⟨rfl, rfl, rfl⟩), rfl, rfl⟩
    | initialise ht hr hv hs =>
      exact flattenDeclaration_eq_ok.mpr ⟨_, _, _, declaredType_eq_ok.mpr ht, hr,
        flattenInitialiser_eq_ok.mpr (.inr ⟨hv, hs⟩), rfl, rfl⟩
    | assign hu hv hs =>
      rw [flatten, flattenAssignment_eq_ok.mpr ⟨hu, _, _, hv, hs, rfl⟩]
    | call hop => rw [flatten, flattenCall_eq_ok.mpr ⟨_, _, rfl, hop, rfl⟩]

/-- **A statement that is rejected leaves the table as it was**: a declaration enters its name
behind the last check. -/
theorem flatten_of_error {node : Node} {e : Error} (h : (flatten o vars node).2 = .error e) :
    (flatten o vars node).1 = vars := by
  cases node with
  | decl name typeName initialiser pos =>
    rw [flatten, flattenDeclaration] at h ⊢
    cases ht : declaredType typeName pos with
    | error e' => rfl
    | ok type =>
      rw [ht] at h
      dsimp only at h ⊢
      split at h
      · next hr => rw [if_pos hr]
      · next hr =>
        rw [if_neg hr]
        cases hi : flattenInitialiser o vars name type pos initialiser with
        | error e' => rfl
        | ok result =>
          rw [hi] at h
          cases h
  | _ => rfl

/-- A statement is rejected and leaves the table, or it keeps the rules. -/
theorem flatten_cases (o : Options) (vars : Table DataType) (node : Node) :
    (∃ e, flatten o vars node = (vars, .error e)) ∨
      ∃ code after, Statement o vars node code after := by
  cases h : (flatten o vars node).2 with
  | error e => exact .inl ⟨e, Prod.ext (flatten_of_error h) h⟩
  | ok code => exact .inr ⟨code, _, flatten_eq_ok.mp (Prod.ext rfl h)⟩

/-! ## The outcome of a statement in one piece -/

/-- The instructions of a statement with the table after it, or the error. -/
def outcome (o : Options) (vars : Table DataType) (node : Node) :
    Except Error (List Instr × Table DataType) :=
  (flatten o vars node).2.map (·, (flatten o vars node).1)

/-- Where a statement is rejected, the table is the one from before, so that nothing is lost. -/
theorem flatten_eq_outcome {node : Node} :
    flatten o vars node =
      match outcome o vars node with
      | .error e => (vars, .error e)
      | .ok (code, after) => (after, .ok code) := by
  rw [outcome]
  rcases flatten_cases o vars node with ⟨e, hf⟩ | ⟨code, after, hs⟩
  · rw [hf]
    rfl
  · rw [flatten_eq_ok.mpr hs]
    rfl

theorem outcome_eq_ok {node : Node} {code : List Instr} {after : Table DataType} :
    outcome o vars node = .ok (code, after) ↔ Statement o vars node code after := by
  rw [← flatten_eq_ok, flatten_eq_outcome]
  cases outcome o vars node with
  | error e => simp
  | ok result => simp [Prod.ext_iff, and_comm]

theorem outcome_decl {name typeName : String} {node : Node} {pos : Pos} :
    outcome o vars (.decl name typeName node pos) =
      declaredType typeName pos >>= fun type =>
        if o.reserved.contains name then .error ⟨.reservedName name, pos⟩
        else flattenInitialiser o vars name type pos node >>= fun result =>
          .ok (result.1 ++ [.declare name type result.2], declare vars name type) := by
  rw [outcome, flatten, flattenDeclaration]
  cases declaredType typeName pos with
  | error e => rfl
  | ok type =>
    dsimp only [Outcome.bind_ok]
    split
    · rfl
    · cases flattenInitialiser o vars name type pos node <;> rfl

end Functions

theorem flattenAll_eq_ok {o : Options} {vars last : Table DataType} {nodes : List Node}
    {instrs : List Instr} :
    flattenAll o vars nodes = (last, .ok instrs) ↔ Statements o vars nodes instrs last := by
  constructor
  · intro h
    induction nodes generalizing vars instrs with
    | nil => cases h; exact .nil
    | cons node nodes ih =>
      rw [flattenAll] at h
      split at h
      · cases h
      · next next code hf =>
        obtain ⟨hlast, hr⟩ := Prod.mk.inj h
        obtain ⟨rest, hrest, rfl⟩ := Outcome.map_eq_ok.mp hr
        exact .cons (flatten_eq_ok.mp hf) (ih (Prod.ext hlast hrest))
  · intro h
    induction h with
    | nil => rfl
    | cons hs _ ih => simp [flattenAll, flatten_eq_ok.mpr hs, ih]

/-- **A program is accepted exactly by the rules.** -/
theorem ofStatements_eq_ok {o : Options} {nodes : List Node} {p : Program} :
    Program.ofStatements o nodes = .ok p ↔ Statements o Table.empty nodes p.instrs p.vars := by
  rw [← flattenAll_eq_ok, Program.ofStatements, build]
  obtain ⟨vars, result⟩ := flattenAll o Table.empty nodes
  obtain ⟨instrs, pvars⟩ := p
  cases result with
  | error e => simp
  | ok code => simp [and_comm]

theorem Statements.of_append {o : Options} {vars last : Table DataType} {nodes rest : List Node}
    {instrs : List Instr} (h : Statements o vars (nodes ++ rest) instrs last) :
    ∃ first more next, Statements o vars nodes first next ∧ Statements o next rest more last ∧
      instrs = first ++ more := by
  induction nodes generalizing vars instrs with
  | nil => exact ⟨[], instrs, vars, .nil, h, rfl⟩
  | cons node nodes ih =>
    cases h with
    | @cons _ _ _ _ _ here _ hs hrest =>
      obtain ⟨first, more, next, hfirst, hmore, rfl⟩ := ih hrest
      exact ⟨here ++ first, more, next, .cons hs hfirst, hmore, (List.append_assoc _ _ _).symm⟩

end Tuple
end Risclet
