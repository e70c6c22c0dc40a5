import Risclet.Proofs.Tuple.Scope

/-! # The rules of the language are enforced

`Lawful o before node` says, without regard to tables and to the order of checks, what a statement
has to keep in the light of the statements before it: what it is made of, the types and names that
it may declare, the integers in it, where literals may go, and that names are declared.  The type of
a variable is the one that it was first declared with.

Flattening sees the statements before only through its table.  The two views agree as long as
everything is accepted (`Tracks`): a statement that is flattened keeps the rules
(`Statement.lawful`), and one that keeps them is flattened (`Lawful.exists_statement`).  So a
program is accepted exactly if every statement keeps the rules, and otherwise it is rejected with
the error of the first that does not (`accepted_iff_lawful`).
-/
namespace Risclet

namespace Node

/-! ## Parts of statements -/

mutual
/-- Every integer in a tree. -/
def integers : Node → List Int
  | .int value _ => [value]
  | .binary _ left right _ => integers left ++ integers right
  | .decl _ _ value _ | .assign _ value _ | .expr value _ => integers value
  | .call _ nodes _ | .program nodes => integersAll nodes
  | _ => []

/-- Every integer in a list of trees. -/
def integersAll : List Node → List Int
  | [] => []
  | node :: nodes => integers node ++ integersAll nodes
end

/-- An integer or a name. -/
def IsOperand : Node → Prop
  | .int _ _ | .ident _ _ => True
  | _ => False

/-- A literal, a name, or an operation on integers and names. -/
def IsValue : Node → Prop
  | .int _ _ | .str _ _ | .ident _ _ => True
  | .binary _ left right _ => left.IsOperand ∧ right.IsOperand
  | _ => False

/-- A declaration, with a value or without, an assignment of a value, or a call with one operand. -/
def IsStatement : Node → Prop
  | .decl _ _ value _ => value = .absent ∨ value.IsValue
  | .assign _ value _ => value.IsValue
  | .call _ args _ => ∃ arg, args = [arg] ∧ arg.IsOperand
  | _ => False

/-- What a declaration or an assignment gives its variable. -/
def rightSide? : Node → Option Node
  | .decl _ _ value _ | .assign _ value _ => some value
  | _ => none

/-- The type of the variable that a declaration or an assignment is about: the one that the
statements before give it first, else the one that the declaration itself names. -/
def targetType? (before : List Node) : Node → Option String
  | .decl name typeName _ _ => some ((firstType? name before).getD typeName)
  | .assign name _ _ => firstType? name before
  | _ => none

end Node

namespace Tuple

/-- **The rules of the language** for a statement behind the statements `before`. -/
structure Lawful (o : Options) (before : List Node) (node : Node) : Prop where
  /-- It is a declaration, an assignment or a call, with parts of the right kinds. -/
  form : node.IsStatement
  /-- A declaration names one of the two types, and no reserved symbol. -/
  declaration : ∀ name typeName value pos, node = .decl name typeName value pos →
    (typeName = "Int32" ∨ typeName = "String") ∧ name ∉ o.reserved
  /-- Integers have 32 bits. -/
  integers : ∀ n ∈ node.integers, -2147483648 ≤ n ∧ n ≤ 2147483647
  /-- An integer goes to an integer variable, or to one of which no type is known. -/
  integer : ∀ n pos, node.rightSide? = some (.int n pos) →
    ∀ type, node.targetType? before = some type → type = "Int32"
  /-- A string comes with the first declaration of a string variable. -/
  string : ∀ text pos, node.rightSide? = some (.str text pos) →
    ∃ name place, node = .decl name "String" (.str text pos) place ∧
      Node.firstType? name before = none
  /-- Where declarations are compulsory, names that are read or assigned have one. -/
  declared : o.strict = true →
    (∀ name ∈ node.names, (Node.firstType? name before).isSome = true) ∧
      ∀ name value pos, node = .assign name value pos →
        (Node.firstType? name before).isSome = true

/-! ## Operands and values -/

section Values
variable {o : Options} {vars : Table DataType} {node : Node}

attribute [local simp] Node.integers Node.names

/-- Integers have 32 bits, and names that are read are declared where they have to be. -/
def Clean (o : Options) (vars : Table DataType) (node : Node) : Prop :=
  (∀ n ∈ node.integers, IsInt32 n) ∧ ∀ name ∈ node.names, Usable o vars name

theorem exists_operand_iff :
    (∃ item, Operand o vars node item) ↔ node.IsOperand ∧ Clean o vars node := by
  cases node with
  | int value pos =>
    simp only [Node.IsOperand, Clean, Node.integers, Node.names, List.mem_singleton,
      forall_eq, List.not_mem_nil, false_implies, implies_true, true_and, and_true]
    constructor
    · rintro ⟨_, ⟨hv⟩⟩; exact hv
    · intro hv; exact ⟨_, .int hv⟩
  | ident name pos =>
    simp only [Node.IsOperand, Clean, Node.integers, Node.names, List.mem_singleton,
      forall_eq, List.not_mem_nil, false_implies, implies_true, true_and]
    constructor
    · rintro ⟨_, h⟩; cases h with | ident hu => exact hu
    · intro hu; exact ⟨_, .ident hu⟩
  | _ =>
    constructor
    · rintro ⟨_, ⟨⟩⟩
    · rintro ⟨⟨⟩, _⟩

theorem clean_binary {op : Operator} {left right : Node} {pos : Pos} :
    Clean o vars (.binary op left right pos) ↔ Clean o vars left ∧ Clean o vars right := by
  simp only [Clean, Node.integers, Node.names, List.forall_mem_append]
  exact and_and_and_comm

theorem clean_decl {name typeName : String} {pos : Pos} :
    Clean o vars (.decl name typeName node pos) ↔ Clean o vars node := by
  simp [Clean]

theorem clean_assign {name : String} {pos : Pos} :
    Clean o vars (.assign name node pos) ↔ Clean o vars node := by
  simp [Clean]

theorem clean_call {name : String} {pos : Pos} :
    Clean o vars (.call name [node] pos) ↔ Clean o vars node := by
  simp only [Clean, Node.integers, Node.integersAll, Node.names, Node.namesAll, List.append_nil]

theorem exists_value_iff :
    (∃ code item, Value o vars node code item) ↔ node.IsValue ∧ Clean o vars node := by
  have hoperand : ∀ {node}, node.IsOperand → Clean o vars node →
      ∃ code item, Value o vars node code item := by
    intro node hf hc
    obtain ⟨item, h⟩ := exists_operand_iff.mpr ⟨hf, hc⟩
    exact ⟨[], item, .operand h⟩
  constructor
  · rintro ⟨code, item, h⟩
    cases h with
    | operand h =>
      obtain ⟨hf, hc⟩ := exists_operand_iff.mp ⟨item, h⟩
      refine ⟨?_, hc⟩
      cases h <;> trivial
    | string => exact ⟨trivial, by simp [Clean, Node.integers, Node.names]⟩
    | operation hl hr =>
      obtain ⟨hfl, hcl⟩ := exists_operand_iff.mp ⟨_, hl⟩
      obtain ⟨hfr, hcr⟩ := exists_operand_iff.mp ⟨_, hr⟩
      exact ⟨⟨hfl, hfr⟩, clean_binary.mpr ⟨hcl, hcr⟩⟩
  · rintro ⟨hf, hc⟩
    cases node with
    | int value pos => exact hoperand trivial hc
    | ident name pos => exact hoperand trivial hc
    | str text pos => exact ⟨_, _, .string⟩
    | binary op left right pos =>
      obtain ⟨hcl, hcr⟩ := clean_binary.mp hc
      obtain ⟨l, hl⟩ := exists_operand_iff.mpr ⟨hf.1, hcl⟩
      obtain ⟨r, hr⟩ := exists_operand_iff.mpr ⟨hf.2, hcr⟩
      exact ⟨_, _, .operation hl hr⟩
    | _ => cases hf

end Values

/-! ## One statement -/

/-- The table holds what the statements `before` declare: each name with the type that it is first
declared with, which is one of the two. -/
def Tracks (vars : Table DataType) (before : List Node) : Prop :=
  ∀ name, (Node.firstType? name before = none ∧ vars.get? name = none) ∨
    ∃ typeName type, Node.firstType? name before = some typeName ∧ vars.get? name = some type ∧
      DataType.ofName? typeName = some type

theorem ofName?_eq_int32 {s : String} : DataType.ofName? s = some .int32 ↔ s = "Int32" := by
  constructor
  · intro h; exact (DataType.name_of_ofName? h).symm
  · rintro rfl; rfl

theorem ofName?_eq_string {s : String} : DataType.ofName? s = some .string ↔ s = "String" := by
  constructor
  · intro h; exact (DataType.name_of_ofName? h).symm
  · rintro rfl; rfl

theorem isInt32_iff {n : Int} : IsInt32 n ↔ -2147483648 ≤ n ∧ n ≤ 2147483647 :=
  Iff.rfl

section Statements
variable {o : Options} {vars after : Table DataType} {before : List Node} {node : Node}

theorem Tracks.contains (h : Tracks vars before) (name : String) :
    vars.contains name = (Node.firstType? name before).isSome := by
  rcases h name with ⟨hf, hg⟩ | ⟨_, _, hf, hg, -⟩ <;> simp [Table.contains, hf, hg]

theorem tracks_empty : Tracks Table.empty [] := fun _ => .inl ⟨rfl, rfl⟩

theorem firstType?_append (name : String) (before rest : List Node) :
    Node.firstType? name (before ++ rest) =
      (Node.firstType? name before).or (Node.firstType? name rest) := by
  induction before with
  | nil => rfl
  | cons node before ih =>
    cases node with
    | decl key typeName value pos =>
      simp only [List.cons_append, Node.firstType?, ih]
      split <;> rfl
    | _ => simpa only [List.cons_append, Node.firstType?] using ih

/-- A statement takes the table to what the statements up to it declare. -/
theorem Statement.tracks {code : List Instr} (h : Statement o vars node code after)
    (ht : Tracks vars before) : Tracks after (before ++ [node]) := by
  have hdecl : ∀ {key typeName : String} {value : Node} {pos : Pos} {type : DataType},
      DataType.ofName? typeName = some type →
      Tracks (Tuple.declare vars key type) (before ++ [.decl key typeName value pos]) := by
    intro key typeName value pos type htype name
    rw [firstType?_append, get?_declare]
    simp only [Node.firstType?]
    by_cases hk : name = key
    · subst hk
      rcases ht name with ⟨hf, hg⟩ | ⟨s, t, hf, hg, hs⟩
      · exact .inr ⟨typeName, type, by simp [hf], by simp [hg], htype⟩
      · exact .inr ⟨s, t, by simp [hf], by simp [hg], hs⟩
    · simpa [hk, Ne.symm hk] using ht name
  cases h with
  | declare htype _ => exact hdecl htype
  | initialise htype _ _ _ => exact hdecl htype
  | assign | call =>
    intro name
    rw [firstType?_append]
    simpa [Node.firstType?] using ht name

/-- A value is stored into a variable of its type. -/
theorem storable_iff {declared : Option DataType} {first : Bool} {item : Item}
    {code : List Instr} (h : Value o vars node code item) :
    Storable declared first item ↔
      (∀ n pos, node = .int n pos → ∀ type, declared = some type → type = .int32) ∧
      ∀ text pos, node = .str text pos →
        first = true ∧ ∀ type, declared = some type → type = .string := by
  cases h with
  | operand h => cases h <;> simp [Storable, Item.literalType?]
  | string => simp [Storable, Item.literalType?]
  | operation _ _ => simp [Storable, Item.literalType?]

theorem Tracks.usable_iff (h : Tracks vars before) {name : String} :
    Usable o vars name ↔ (o.strict = true → (Node.firstType? name before).isSome = true) := by
  rw [Usable, h.contains]

/-- The type that the table or the declaration itself gives a variable is the one that the
statements give it. -/
theorem Tracks.getD_eq_iff (h : Tracks vars before) {name typeName : String}
    {type t : DataType} (ht : DataType.ofName? typeName = some type) :
    (vars.get? name).getD type = t ↔
      DataType.ofName? ((Node.firstType? name before).getD typeName) = some t := by
  rcases h name with ⟨hf, hg⟩ | ⟨s, u, hf, hg, hs⟩
  · simp [hf, hg, ht]
  · simp [hf, hg, hs]

/-- A variable that has no other type than that of integers. -/
theorem Tracks.forall_int32_iff (h : Tracks vars before) {name : String} :
    (∀ type, vars.get? name = some type → type = .int32) ↔
      ∀ typeName, Node.firstType? name before = some typeName → typeName = "Int32" := by
  rcases h name with ⟨hf, hg⟩ | ⟨s, t, hf, hg, hs⟩
  · simp [hf, hg]
  · simp only [hf, hg, Option.some.injEq, forall_eq']
    rw [← ofName?_eq_int32, hs, Option.some.injEq]

theorem Tracks.clean_iff (h : Tracks vars before) :
    Clean o vars node ↔ (∀ n ∈ node.integers, -2147483648 ≤ n ∧ n ≤ 2147483647) ∧
      (o.strict = true → ∀ name ∈ node.names, (Node.firstType? name before).isSome = true) := by
  simp only [Clean, isInt32_iff, h.usable_iff]
  refine and_congr_right fun _ => ⟨?_, ?_⟩
  · intro hn hs name hm; exact hn name hm hs
  · intro hn name hm hs; exact hn hs name hm

/-- What is flattened keeps the rules. -/
theorem Statement.lawful {code : List Instr} (h : Statement o vars node code after)
    (ht : Tracks vars before) : Lawful o before node := by
  have htype : ∀ {typeName type}, DataType.ofName? typeName = some type →
      typeName = "Int32" ∨ typeName = "String" := by
    intro typeName type hn
    rcases DataType.hasStorage_of_ofName? hn with rfl | rfl
    · exact .inl (ofName?_eq_int32.mp hn)
    · exact .inr (ofName?_eq_string.mp hn)
  cases h with
  | @declare name typeName pos type hn hr =>
    have hc : Clean o vars (.decl name typeName .absent pos) := by
      simp [Clean, Node.integers, Node.names]
    obtain ⟨hrange, hnames⟩ := ht.clean_iff.mp hc
    refine ⟨.inl rfl, ?_, hrange, ?_, ?_, fun hst => ⟨hnames hst, ?_⟩⟩
    · rintro _ _ _ _ ⟨⟩; exact ⟨htype hn, hr⟩
    · rintro n p ⟨⟩
    · rintro text p ⟨⟩
    · rintro _ _ _ ⟨⟩
  | @initialise name typeName value pos type code item hn hr hv hs =>
    obtain ⟨hf, hc⟩ := exists_value_iff.mp ⟨_, _, hv⟩
    obtain ⟨hrange, hnames⟩ := ht.clean_iff.mp (clean_decl.mpr hc)
    obtain ⟨hint, hstr⟩ := (storable_iff hv).mp hs
    refine ⟨.inr hf, ?_, hrange, ?_, ?_, fun hst => ⟨hnames hst, ?_⟩⟩
    · rintro _ _ _ _ ⟨⟩; exact ⟨htype hn, hr⟩
    · rintro n p ⟨⟩ _ ⟨⟩
      exact ofName?_eq_int32.mp ((ht.getD_eq_iff hn).mp (hint n p rfl _ rfl))
    · rintro text p ⟨⟩
      obtain ⟨hfirst, hstring⟩ := hstr text p rfl
      have hnone : Node.firstType? name before = none := by simpa [ht.contains] using hfirst
      -- So the type of the variable is the one that the declaration names.
      have hown := (ht.getD_eq_iff hn).mp (hstring _ rfl)
      rw [hnone, Option.getD_none] at hown
      obtain rfl := ofName?_eq_string.mp hown
      exact ⟨name, pos, rfl, hnone⟩
    · rintro _ _ _ ⟨⟩
  | @assign name value pos code item hu hv hs =>
    obtain ⟨hf, hc⟩ := exists_value_iff.mp ⟨_, _, hv⟩
    obtain ⟨hrange, hnames⟩ := ht.clean_iff.mp (clean_assign.mpr hc)
    obtain ⟨hint, hstr⟩ := (storable_iff hv).mp hs
    refine ⟨hf, ?_, hrange, ?_, ?_, fun hst => ⟨hnames hst, ?_⟩⟩
    · rintro _ _ _ _ ⟨⟩
    · rintro n p ⟨⟩
      exact ht.forall_int32_iff.mp (hint n p rfl)
    · rintro text p ⟨⟩
      have hfirst := (hstr text p rfl).1
      cases hfirst
    · rintro _ _ _ ⟨⟩
      exact ht.usable_iff.mp hu hst
  | @call name arg pos item hop =>
    obtain ⟨hf, hc⟩ := exists_operand_iff.mp ⟨_, hop⟩
    obtain ⟨hrange, hnames⟩ := ht.clean_iff.mp (clean_call.mpr hc)
    refine ⟨⟨arg, rfl, hf⟩, ?_, hrange, ?_, ?_, fun hst => ⟨hnames hst, ?_⟩⟩
    · rintro _ _ _ _ ⟨⟩
    · rintro n p ⟨⟩
    · rintro text p ⟨⟩
    · rintro _ _ _ ⟨⟩

/-- What keeps the rules is flattened. -/
theorem Lawful.exists_statement (h : Lawful o before node) (ht : Tracks vars before) :
    ∃ code after, Statement o vars node code after := by
  have hform := h.form
  have hc : Clean o vars node := ht.clean_iff.mpr ⟨h.integers, fun hst => (h.declared hst).1⟩
  cases node with
  | decl name typeName value pos =>
    obtain ⟨htype, hr⟩ := h.declaration _ _ _ _ rfl
    obtain ⟨type, hn⟩ : ∃ type, DataType.ofName? typeName = some type := by
      rcases htype with rfl | rfl
      · exact ⟨_, ofName?_eq_int32.mpr rfl⟩
      · exact ⟨_, ofName?_eq_string.mpr rfl⟩
    rcases hform with rfl | hf
    · exact ⟨_, _, .declare hn hr⟩
    · obtain ⟨code, item, hv⟩ := exists_value_iff.mpr ⟨hf, clean_decl.mp hc⟩
      refine ⟨_, _, .initialise hn hr hv ((storable_iff hv).mpr ⟨?_, ?_⟩)⟩
      · rintro n p rfl _ ⟨⟩
        exact (ht.getD_eq_iff hn).mpr (ofName?_eq_int32.mpr (h.integer n p rfl _ rfl))
      · rintro text p rfl
        obtain ⟨_, _, ⟨⟩, hnone⟩ := h.string text p rfl
        refine ⟨by simp [ht.contains, hnone], ?_⟩
        rintro _ ⟨⟩
        exact (ht.getD_eq_iff hn).mpr (by rw [hnone]; rfl)
  | assign name value pos =>
    obtain ⟨code, item, hv⟩ := exists_value_iff.mpr ⟨hform, clean_assign.mp hc⟩
    have hu : Usable o vars name := ht.usable_iff.mpr fun hst => (h.declared hst).2 _ _ _ rfl
    refine ⟨_, _, .assign hu hv ((storable_iff hv).mpr ⟨?_, ?_⟩)⟩
    · rintro n p rfl
      exact ht.forall_int32_iff.mpr (h.integer n p rfl)
    · rintro text p rfl
      obtain ⟨_, _, ⟨⟩, _⟩ := h.string text p rfl
  | call name args pos =>
    obtain ⟨arg, rfl, hf⟩ := hform
    obtain ⟨item, hop⟩ := exists_operand_iff.mpr ⟨hf, clean_call.mp hc⟩
    exact ⟨_, _, .call hop⟩
  | _ => cases hform

end Statements

/-! ## Programs -/

section Programs
variable {o : Options} {vars last : Table DataType} {before nodes : List Node}

/-- Flattened statements keep the rules, and the table holds what all of them declare. -/
theorem Statements.lawful {instrs : List Instr} (h : Statements o vars nodes instrs last)
    (ht : Tracks vars before) :
    (∀ i node, nodes[i]? = some node → Lawful o (before ++ nodes.take i) node) ∧
      Tracks last (before ++ nodes) := by
  induction h generalizing before with
  | nil => exact ⟨by simp, by simpa using ht⟩
  | @cons vars next last node nodes code rest hs _ ih =>
    obtain ⟨hrest, hlast⟩ := ih (hs.tracks ht)
    rw [List.append_assoc, List.singleton_append] at hlast
    refine ⟨fun i other hi => ?_, hlast⟩
    cases i with
    | zero =>
      obtain rfl : node = other := Option.some.inj hi
      simpa using hs.lawful ht
    | succ i => simpa using hrest i other hi

/-- Statements are flattened, or the first that breaks a rule is rejected. -/
theorem flattenAll_cases (ht : Tracks vars before) :
    (∃ instrs last, Statements o vars nodes instrs last) ∨
      ∃ e i node table, (flattenAll o vars nodes).2 = .error e ∧ nodes[i]? = some node ∧
        (∀ j < i, ∀ other, nodes[j]? = some other → Lawful o (before ++ nodes.take j) other) ∧
        ¬ Lawful o (before ++ nodes.take i) node ∧ Tracks table (before ++ nodes.take i) ∧
        flatten o table node = (table, .error e) := by
  induction nodes generalizing vars before with
  | nil => exact .inl ⟨[], vars, .nil⟩
  | cons node nodes ih =>
    rcases flatten_cases o vars node with ⟨e, hf⟩ | ⟨code, next, hs⟩
    · have hbroken : ¬ Lawful o before node := by
        intro hl
        obtain ⟨code, after, hs⟩ := hl.exists_statement ht
        rw [flatten_eq_ok.mpr hs] at hf
        cases hf
      exact .inr ⟨e, 0, node, vars, by simp [flattenAll, hf], rfl, by simp,
        by simpa using hbroken, by simpa using ht, hf⟩
    · rcases ih (hs.tracks ht) with
        ⟨rest, last, hrest⟩ | ⟨e, i, other, table, he, hi, hearlier, hbroken, htable, hfe⟩
      · exact .inl ⟨_, last, .cons hs hrest⟩
      · refine .inr ⟨e, i + 1, other, table, by simp [flattenAll, flatten_eq_ok.mpr hs, he], hi, ?_,
          by simpa using hbroken, by simpa using htable, hfe⟩
        intro j hj earlier hget
        cases j with
        | zero =>
          obtain rfl : node = earlier := Option.some.inj hget
          simpa using hs.lawful ht
        | succ j => simpa using hearlier j (by omega) earlier hget

end Programs

/-- **The rules are enforced.**  Statements are accepted exactly if each keeps the rules behind
those before it.  The table of an accepted program holds what its statements declare.  Where
statements are rejected, the error is that of the first statement that breaks a rule, flattened with
a table that holds what those before it declare. -/
theorem accepted_iff_lawful (o : Options) (nodes : List Node) :
    ((∃ p, Program.ofStatements o nodes = .ok p) ↔
        ∀ i node, nodes[i]? = some node → Lawful o (nodes.take i) node) ∧
      (∀ p, Program.ofStatements o nodes = .ok p → Tracks p.vars nodes) ∧
      ∀ e, Program.ofStatements o nodes = .error e →
        ∃ i node table, nodes[i]? = some node ∧
          (∀ j < i, ∀ other, nodes[j]? = some other → Lawful o (nodes.take j) other) ∧
          ¬ Lawful o (nodes.take i) node ∧ Tracks table (nodes.take i) ∧
          flatten o table node = (table, .error e) := by
  have haccepted : ∀ p, Program.ofStatements o nodes = .ok p →
      (∀ i node, nodes[i]? = some node → Lawful o (nodes.take i) node) ∧ Tracks p.vars nodes := by
    intro p hp
    simpa using (ofStatements_eq_ok.mp hp).lawful tracks_empty
  rcases flattenAll_cases (tracks_empty : Tracks Table.empty []) with
    ⟨instrs, last, hs⟩ | ⟨e, i, node, table, he, hi, hearlier, hbroken, htable, hfe⟩
  · have hp : Program.ofStatements o nodes = .ok ⟨instrs, last⟩ := ofStatements_eq_ok.mpr hs
    refine ⟨⟨fun _ => (haccepted _ hp).1, fun _ => ⟨_, hp⟩⟩, fun p h => (haccepted p h).2, ?_⟩
    intro e he
    rw [hp] at he
    cases he
  · have herr : Program.ofStatements o nodes = .error e := by
      rw [Program.ofStatements, build]
      simp only [he, Outcome.map_error]
    rw [List.nil_append] at hbroken htable
    refine ⟨⟨?_, fun hall => absurd (hall i node hi) hbroken⟩, fun p h => (haccepted p h).2, ?_⟩
    · rintro ⟨p, hp⟩
      exact (haccepted p hp).1
    · intro e' he'
      obtain rfl : e = e' := Except.error.inj (herr.symm.trans he')
      exact ⟨i, node, table, hi, hearlier, hbroken, htable, hfe⟩

end Tuple
end Risclet
