import Risclet.Proofs.Tuple.Accesses

/-! # Statements can be read back

Each statement becomes a group of instructions: one declaration, assignment or call, or an operation
with the declaration or assignment of its result right behind it.  Groups have no marks between them
and are of different lengths, but the first instruction of a group tells how long it is, so a list
falls into groups in one way only (`Splits.unique`).  A group holds everything that its statement
says except where it stands; so the statements can be read off the instructions
(`flattening_reads_back`).

Results and strings are rare in such lists.  A result is read only by the instruction behind its
operation, and a string stands only in the first declaration of a string variable (`Proper`).  This
is proved for every place of the list, with all instructions in front of it in view.
-/
namespace Risclet

/-- The tree of an item, where there is one. -/
def Item.node? : Item → Option Node
  | int value => some (.int value Pos.unknown)
  | str value => some (.str value Pos.unknown)
  | ident name => some (.ident name Pos.unknown)
  | temp _ | foreign _ | absent => none

/-- An item that is neither a result nor a string. -/
def Item.IsOperand (item : Item) : Prop :=
  item.temps = [] ∧ item.literalType? ≠ some .string

namespace Tuple

/-! ## Groups -/

/-- A declaration or an assignment of `value`. -/
inductive Instr.Sets (value : Item) : Instr → Prop where
  | declare (name : String) (type : DataType) : Sets value (.declare name type value)
  | assign (name : String) : Sets value (.assign name value)

/-- The instructions that a statement can become. -/
inductive Group : List Instr → Prop where
  | store {instr : Instr} {value : Item} : instr.Sets value → value.temps = [] → Group [instr]
  | call {name : String} {arg : Item} : arg.temps = [] → Group [.call name [arg]]
  | operation {op : Operator} {left right : Item} {instr : Instr} :
      left.IsOperand → right.IsOperand → instr.Sets (.temp 0) →
      Group [.binary op left right 0, instr]

/-- The statement that an instruction gives its variable `value` with. -/
def Instr.statement? (value : Node) : Instr → Option Node
  | declare name type _ => some (.decl name type.name value Pos.unknown)
  | assign name _ => some (.assign name value Pos.unknown)
  | call _ _ | binary _ _ _ _ | foreign _ => none

/-- The statement that a group stands for. -/
def readGroup : List Instr → Option Node
  | [.declare name type .absent] => some (.decl name type.name .absent Pos.unknown)
  | [.declare name type value] => do Instr.statement? (← value.node?) (.declare name type value)
  | [.assign name value] => do Instr.statement? (← value.node?) (.assign name value)
  | [.call name [arg]] => do return .call name [← arg.node?] Pos.unknown
  | [.binary op left right _, instr] => do
    instr.statement? (.binary op (← left.node?) (← right.node?) Pos.unknown)
  | _ => none

/-- The list falls into the groups, in order. -/
structure Splits (instrs : List Instr) (groups : List (List Instr)) : Prop where
  flatten_eq : groups.flatten = instrs
  group : ∀ g ∈ groups, Group g

section Unique
variable {instrs rest rest' g g' : List Instr}

theorem Group.ne_nil (h : Group g) : g ≠ [] := by
  cases h <;> simp

/-- **The first instruction tells how long a group is.** -/
theorem Group.append_inj (h : Group g) (h' : Group g') (he : g ++ rest = g' ++ rest') :
    g = g' ∧ rest = rest' := by
  have hstore : ∀ {value op left right temp}, ¬ (Instr.binary op left right temp).Sets value := by
    rintro _ _ _ _ _ ⟨⟩
  cases h with
  | @store instr value hs _ =>
    cases h' with
    | store | call => simpa using he
    | operation =>
      obtain ⟨rfl, -⟩ := List.cons.inj he
      exact absurd hs hstore
  | call =>
    cases h' with
    | store | call => simpa using he
    | operation => cases (List.cons.inj he).1
  | operation =>
    cases h' with
    | @store instr value hs _ =>
      obtain ⟨rfl, -⟩ := List.cons.inj he
      exact absurd hs hstore
    | call => cases (List.cons.inj he).1
    | operation => simpa [and_assoc] using he

/-- **A list falls into groups in one way only.** -/
theorem Splits.unique {groups others : List (List Instr)} (h : Splits instrs groups)
    (h' : Splits instrs others) : others = groups := by
  obtain ⟨rfl, hg⟩ := h
  obtain ⟨he, ho⟩ := h'
  induction groups generalizing others with
  | nil =>
    cases others with
    | nil => rfl
    | cons other others =>
      have hnil : other = [] := (List.append_eq_nil_iff.mp he).1
      exact absurd hnil (ho other List.mem_cons_self).ne_nil
  | cons g groups ih =>
    obtain ⟨hfirst, hrest⟩ := List.forall_mem_cons.mp hg
    cases others with
    | nil => exact absurd (List.append_eq_nil_iff.mp he.symm).1 hfirst.ne_nil
    | cons other others =>
      obtain ⟨hother, hothers⟩ := List.forall_mem_cons.mp ho
      obtain ⟨rfl, htail⟩ := hother.append_inj hfirst he
      rw [ih hrest htail hothers]

end Unique

/-! ## The group of a statement -/

section Reading
variable {o : Options} {vars after last : Table DataType} {node : Node} {nodes : List Node}
  {code instrs : List Instr} {item : Item}

theorem Operand.isOperand (h : Operand o vars node item) : item.IsOperand := by
  cases h <;> exact ⟨rfl, by simp [Item.literalType?]⟩

theorem Operand.node?_eq (h : Operand o vars node item) : item.node? = some node.erase := by
  cases h <;> rw [Node.erase] <;> rfl

/-- The code of a value and the instruction that stores it are a group. -/
theorem Value.group (h : Value o vars node code item) {instr : Instr} (hs : instr.Sets item) :
    Group (code ++ [instr]) := by
  cases h with
  | operand hop => exact .store hs hop.isOperand.1
  | string => exact .store hs rfl
  | operation hl hr => exact .operation hl.isOperand hr.isOperand hs

/-- The value can be read off its code and the instruction that stores it. -/
theorem Value.readGroup_eq (h : Value o vars node code item) {instr : Instr}
    (hs : instr.Sets item) :
    readGroup (code ++ [instr]) = instr.statement? node.erase := by
  cases h with
  | operand hop =>
    have hnode := hop.node?_eq
    cases hop <;> cases hs <;> simp [readGroup, hnode]
  | string => cases hs <;> simp [readGroup, Item.node?, Node.erase]
  | operation hl hr =>
    rw [Node.erase]
    simp [readGroup, hl.node?_eq, hr.node?_eq]

/-- **A statement becomes a group, and can be read off it.** -/
theorem Statement.readable (h : Statement o vars node code after) :
    Group code ∧ readGroup code = some node.erase := by
  cases h with
  | declare ht _ =>
    refine ⟨.store (.declare _ _) rfl, ?_⟩
    rw [Node.erase, Node.erase, ← DataType.name_of_ofName? ht]
    rfl
  | initialise ht _ hv _ =>
    refine ⟨hv.group (.declare _ _), ?_⟩
    rw [hv.readGroup_eq (.declare _ _), Node.erase, ← DataType.name_of_ofName? ht]
    rfl
  | assign _ hv _ =>
    refine ⟨hv.group (.assign _), ?_⟩
    rw [hv.readGroup_eq (.assign _), Node.erase]
    rfl
  | call hop =>
    refine ⟨.call hop.isOperand.1, ?_⟩
    rw [Node.erase, Node.eraseAll, Node.eraseAll]
    simp [readGroup, hop.node?_eq]

/-- **Statements become one group each, in order.** -/
theorem Statements.readable (h : Statements o vars nodes instrs last) :
    ∃ groups, Splits instrs groups ∧
      groups.map readGroup = nodes.map (fun node => some node.erase) := by
  induction h with
  | nil => exact ⟨[], ⟨rfl, by simp⟩, rfl⟩
  | @cons _ _ _ node nodes code rest hs _ ih =>
    obtain ⟨groups, ⟨rfl, hgroups⟩, hread⟩ := ih
    obtain ⟨hgroup, hnode⟩ := hs.readable
    refine ⟨code :: groups, ⟨rfl, List.forall_mem_cons.mpr ⟨hgroup, hgroups⟩⟩, ?_⟩
    rw [List.map_cons, List.map_cons, hnode, hread]

end Reading

/-! ## Results and strings -/

/-- The items of an instruction. -/
def Instr.items : Instr → List Item
  | declare _ _ value | assign _ value => [value]
  | call _ args => args
  | binary _ left right _ => [left, right]
  | foreign _ => []

/-- An instruction behind `before` in which results and strings stand where they may. -/
structure Proper (before : List Instr) (instr : Instr) : Prop where
  /-- A result is that of the operation right before, and it is stored. -/
  temps : ∀ id, .temp id ∈ instr.items → id = 0 ∧ instr.Sets (.temp 0) ∧
    ∃ first op left right, before = first ++ [.binary op left right 0]
  /-- A string is what a string variable is first declared with. -/
  strings : ∀ text, .str text ∈ instr.items →
    ∃ name, instr = .declare name .string (.str text) ∧
      ∀ earlier ∈ before, ¬ earlier.Declares name

/-- Instructions behind `before` that are proper in every place. -/
def AllProper (before code : List Instr) : Prop :=
  ∀ first instr behind, code = first ++ instr :: behind → Proper (before ++ first) instr

section Places
variable {o : Options} {vars after last : Table DataType} {node : Node} {nodes : List Node}
  {code rest instrs before : List Instr} {instr : Instr} {item : Item}

theorem allProper_nil : AllProper before [] :=
  forall_place_nil

theorem allProper_cons :
    AllProper before (instr :: code) ↔
      Proper before instr ∧ AllProper (before ++ [instr]) code := by
  unfold AllProper
  rw [forall_place_cons (P := fun first other _ => Proper (before ++ first) other)]
  simp

theorem allProper_singleton : AllProper before [instr] ↔ Proper before instr := by
  simp [allProper_cons, allProper_nil]

theorem AllProper.append (h : AllProper before code) (hrest : AllProper (before ++ code) rest) :
    AllProper before (code ++ rest) := by
  induction code generalizing before with
  | nil => simpa using hrest
  | cons instr code ih =>
    obtain ⟨hfirst, hothers⟩ := allProper_cons.mp h
    exact allProper_cons.mpr ⟨hfirst, ih hothers (by simpa using hrest)⟩

/-- Where there are only operands, there is nothing to keep. -/
theorem proper_of_operands (h : ∀ item ∈ instr.items, item.IsOperand) : Proper before instr := by
  refine ⟨fun id hid => ?_, fun text htext => ?_⟩
  · cases (h _ hid).1
  · exact absurd rfl (h _ htext).2

/-- The code of a value and the instruction that stores it, where a string is stored by the first
declaration of its variable. -/
theorem Value.proper (h : Value o vars node code item) (hs : instr.Sets item)
    (hstring : ∀ text, item = .str text → ∃ name, instr = .declare name .string (.str text) ∧
      ∀ earlier ∈ before, ¬ earlier.Declares name) :
    AllProper before (code ++ [instr]) := by
  have hitems : instr.items = [item] := by cases hs <;> rfl
  cases h with
  | operand hop =>
    refine allProper_singleton.mpr (proper_of_operands fun other hother => ?_)
    rw [hitems] at hother
    obtain rfl := List.mem_singleton.mp hother
    exact hop.isOperand
  | string =>
    refine allProper_singleton.mpr ⟨fun id hid => ?_, fun text htext => ?_⟩
    · simp [hitems] at hid
    · rw [hitems] at htext
      exact hstring text (List.mem_singleton.mp htext).symm
  | @operation op left right pos l r hl hr =>
    have hoperation : Proper before (.binary op l r 0) := by
      refine proper_of_operands (List.forall_mem_cons.mpr ⟨hl.isOperand, ?_⟩)
      exact List.forall_mem_singleton.mpr hr.isOperand
    refine (allProper_singleton.mpr hoperation).append (allProper_singleton.mpr ?_)
    refine ⟨fun id hid => ?_, fun text htext => ?_⟩
    · rw [hitems] at hid
      obtain rfl : id = 0 := by simpa using hid
      exact ⟨rfl, hs, before, op, l, r, rfl⟩
    · simp [hitems] at htext

/-- **The instructions of a statement are proper**, behind those that the table comes from. -/
theorem Statement.proper (h : Statement o vars node code after) (hbefore : Enters before vars) :
    AllProper before code := by
  cases h with
  | declare _ _ =>
    refine allProper_singleton.mpr (proper_of_operands fun item hitem => ?_)
    obtain rfl := List.mem_singleton.mp hitem
    exact ⟨rfl, by simp [Item.literalType?]⟩
  | @initialise name _ _ _ type _ item _ _ hv hs =>
    refine hv.proper (.declare name type) ?_
    rintro text rfl
    obtain ⟨hfirst, htype⟩ := hs .string rfl
    have hnew : ¬ vars.contains name = true := by simpa using hfirst rfl
    have hnone : vars.get? name = none := Table.contains_eq_false.mp (by simpa using hnew)
    obtain rfl : type = .string := htype type (by rw [hnone]; rfl)
    refine ⟨name, rfl, fun earlier hearlier hd => hnew ?_⟩
    exact (hbefore name).mpr ⟨earlier, hearlier, hd⟩
  | @assign name _ _ _ item _ hv hs =>
    refine hv.proper (.assign name) ?_
    rintro text rfl
    cases (hs .string rfl).1 rfl
  | call hop =>
    refine allProper_singleton.mpr (proper_of_operands fun item hitem => ?_)
    obtain rfl := List.mem_singleton.mp hitem
    exact hop.isOperand

/-- **Flattened statements are proper in every place.** -/
theorem Statements.proper (h : Statements o vars nodes instrs last)
    (hbefore : Enters before vars) : AllProper before instrs := by
  induction h generalizing before with
  | nil => exact allProper_nil
  | cons hs _ ih => exact (hs.proper hbefore).append (ih (hs.enters hbefore))

end Places

/-- **Flattening loses nothing but positions.**  The instructions of an accepted program fall into
groups, and in one way only.  The groups stand for the statements in order: reading them gives the
trees without their positions.  In every place, a result is read only to store that of the operation
right before, and a string is only what a string variable is first declared with. -/
theorem flattening_reads_back {o : Options} {nodes : List Node} {p : Program}
    (h : Program.ofStatements o nodes = .ok p) :
    ∃ groups, Splits p.instrs groups ∧ (∀ others, Splits p.instrs others → others = groups) ∧
      groups.map readGroup = nodes.map (fun node => some node.erase) ∧
      ∀ before instr behind, p.instrs = before ++ instr :: behind → Proper before instr := by
  have hs := ofStatements_eq_ok.mp h
  obtain ⟨groups, hsplits, hread⟩ := hs.readable
  exact ⟨groups, hsplits, fun others hothers => hsplits.unique hothers, hread, hs.proper enters_nil⟩

/-- A program with a statement of each kind, in a text with a statement to a line. -/
def medley : List Node :=
  [.decl "s" "String" (.str "t0" ⟨1, 13⟩) ⟨1, 1⟩,
    .decl "n" "Int32" .absent ⟨2, 1⟩,
    .assign "n" (.binary (.arith .divide) (.ident "n" ⟨3, 5⟩) (.int (-2) ⟨3, 9⟩) ⟨3, 5⟩) ⟨3, 1⟩,
    .call "Output" [.ident "n" ⟨4, 8⟩] ⟨4, 1⟩]

/-- Its five instructions fall into four groups, and nothing but the places is lost. -/
theorem flattening_reads_back_medley :
    ∃ p groups, Program.ofStatements {} medley = .ok p ∧ Splits p.instrs groups ∧
      p.instrs.length = 5 ∧ groups.length = 4 ∧
      groups.map readGroup = medley.map (fun node => some node.erase) := by
  have hp : Program.ofStatements {} medley = .ok _ := rfl
  obtain ⟨groups, hsplits, -, hread, -⟩ := flattening_reads_back hp
  refine ⟨_, groups, hp, hsplits, rfl, ?_, hread⟩
  simpa [medley] using congrArg List.length hread

end Tuple
end Risclet
