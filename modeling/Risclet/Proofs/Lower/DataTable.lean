import Risclet.Proofs.Lower.Slots
import Risclet.Proofs.Tuple.Accesses

/-! # The table of slots

The table is made twice.  Flattening enters every name with the type of its first declaration;
lowering begins with these names and the initial values of their types, and puts the literal of a
first declaration into its slot.  Both keep account of what has been declared, and both look at
every declaration.  Still the table depends on first declarations only: their names in order, their
types, and their literals (`slots_of_first_declarations`).
-/
namespace Risclet

/-- The text of a literal. -/
def Item.literalText? : Item → Option String
  | int value => some (toString value)
  | str value => some (Text.Quoted.quote value)
  | _ => none

theorem Item.literalText?_eq (item : Item) :
    item.literalText? = item.literalType?.map (fun _ => item.text) := by
  cases item <;> rfl

/-- The text of a literal in a tree. -/
def Node.literalText? : Node → Option String
  | int value _ => some (toString value)
  | str value _ => some (Text.Quoted.quote value)
  | _ => none

/-! ## Flattening -/

namespace Tuple

/-- The type and the item with which an instruction declares a name. -/
def Instr.declaration? (name : String) : Instr → Option (DataType × Item)
  | declare key type value => if key = name then some (type, value) else none
  | _ => none

theorem Instr.declaration?_eq_none {name : String} {instr : Instr} :
    instr.declaration? name = none ↔ ¬ instr.Declares name := by
  cases instr with
  | declare key type value => simp [declaration?, declares_declare, eq_comm]
  | _ => simp [declaration?, Declares]

theorem Instr.declaration?_eq_some {name : String} {instr : Instr} {type : DataType}
    {value : Item} :
    instr.declaration? name = some (type, value) ↔ instr = .declare name type value := by
  cases instr with
  | declare key => by_cases hk : key = name <;> simp [declaration?, hk]
  | _ => simp [declaration?]

variable {o : Options} {vars after last : Table DataType} {node : Node} {nodes before : List Node}
  {code instrs : List Instr} {item : Item} {name : String}

/-- A declaration enters a new name at the end. -/
theorem keys_declare (vars : Table DataType) (name : String) (type : DataType) :
    (declare vars name type).keys =
      if name ∈ vars.keys then vars.keys else vars.keys ++ [name] := by
  unfold declare
  by_cases hc : vars.contains name = true
  · rw [if_pos hc, if_pos (Table.contains_iff_mem_keys.mp hc)]
  · rw [if_neg hc, Table.keys_set]

theorem declaredNames_concat (before : List Node) (node : Node) :
    Node.declaredNames (before ++ [node]) =
      match node.declaredName? with
      | none => Node.declaredNames before
      | some name =>
        if name ∈ Node.declaredNames before then Node.declaredNames before
        else Node.declaredNames before ++ [name] := by
  unfold Node.declaredNames
  rw [List.filterMap_append, List.eraseDups_append]
  cases hn : node.declaredName? with
  | none => simp [hn, List.removeAll]
  | some name =>
    have hlast : [node].filterMap Node.declaredName? = [name] := by simp [hn]
    rw [hlast, List.removeAll]
    simp only [List.mem_eraseDups]
    by_cases hm : name ∈ before.filterMap Node.declaredName?
    · rw [if_pos hm, List.filter_cons_of_neg (by simpa using hm)]
      simp
    · rw [if_neg hm, List.filter_cons_of_pos (by simpa using hm)]
      simp [List.eraseDups_cons]

/-- **A statement enters the name that it declares.** -/
theorem Statement.keys_eq (h : Statement o vars node code after)
    (hvars : vars.keys = Node.declaredNames before) :
    after.keys = Node.declaredNames (before ++ [node]) := by
  rw [declaredNames_concat]
  cases h with
  | declare | initialise => rw [keys_declare, hvars]; rfl
  | _ => exact hvars

theorem Statements.keys_eq (h : Statements o vars nodes instrs last)
    (hvars : vars.keys = Node.declaredNames before) :
    last.keys = Node.declaredNames (before ++ nodes) := by
  induction h generalizing before with
  | nil => simpa using hvars
  | @cons _ _ _ node nodes _ _ hs _ ih =>
    rw [← List.singleton_append, ← List.append_assoc]
    exact ih (hs.keys_eq hvars)

/-- The variables of a program are the names that it declares, in order. -/
theorem keys_ofStatements {p : Program} (h : Program.ofStatements o nodes = .ok p) :
    p.vars.keys = Node.declaredNames nodes := by
  simpa using (ofStatements_eq_ok.mp h).keys_eq (show _ = Node.declaredNames [] from rfl)

theorem Value.literalText?_eq (h : Value o vars node code item) :
    item.literalText? = node.literalText? := by
  cases h with
  | operand hop => cases hop <;> rfl
  | _ => rfl

/-- The code of a value declares nothing, so what is declared is declared behind it. -/
theorem Value.findSome?_append (h : Value o vars node code item) (rest : List Instr) :
    (code ++ rest).findSome? (Instr.declaration? name) =
      rest.findSome? (Instr.declaration? name) := by
  have hcode : code.findSome? (Instr.declaration? name) = none :=
    List.findSome?_eq_none_iff.mpr fun i hi =>
      Instr.declaration?_eq_none.mpr (h.not_declares i hi name)
  rw [List.findSome?_append, hcode, Option.none_or]

/-- A statement and its instructions declare a name with the same type and the same literal, or
neither declares it. -/
theorem Statement.declaration?_eq (h : Statement o vars node code after) (name : String) :
    (node.declaration? name = none ∧ code.findSome? (Instr.declaration? name) = none) ∨
      ∃ typeName type value item, node.declaration? name = some (typeName, value) ∧
        DataType.ofName? typeName = some type ∧
        code.findSome? (Instr.declaration? name) = some (type, item) ∧
        item.literalText? = value.literalText? := by
  cases h with
  | @declare key typeName pos type ht _ =>
    by_cases hk : key = name
    · exact .inr ⟨typeName, type, .absent, .absent, if_pos hk, ht,
        by simp [Instr.declaration?, hk], rfl⟩
    · exact .inl ⟨if_neg hk, by simp [Instr.declaration?, hk]⟩
  | @initialise key typeName value pos type first item ht _ hv _ =>
    rw [hv.findSome?_append]
    by_cases hk : key = name
    · exact .inr ⟨typeName, type, value, item, if_pos hk, ht,
        by simp [Instr.declaration?, hk], hv.literalText?_eq⟩
    · exact .inl ⟨if_neg hk, by simp [Instr.declaration?, hk]⟩
  | assign _ hv _ => exact .inl ⟨rfl, by rw [hv.findSome?_append]; rfl⟩
  | call _ => exact .inl ⟨rfl, rfl⟩

/-- **Instructions keep first declarations.** -/
theorem Statements.firstDeclaration?_eq (h : Statements o vars nodes instrs last)
    {typeName : String} {value : Node}
    (hfirst : Node.firstDeclaration? name nodes = some (typeName, value)) :
    ∃ type item, DataType.ofName? typeName = some type ∧
      instrs.findSome? (Instr.declaration? name) = some (type, item) ∧
      item.literalText? = value.literalText? := by
  induction h with
  | nil => cases hfirst
  | @cons _ _ _ node nodes code rest hs _ ih =>
    rw [Node.firstDeclaration?, List.findSome?_cons] at hfirst
    rw [List.findSome?_append]
    rcases hs.declaration?_eq name with ⟨hn, hc⟩ | ⟨_, type, _, item, hn, ht, hc, htext⟩
    · rw [hn] at hfirst
      rw [hc, Option.none_or]
      exact ih hfirst
    · rw [hn] at hfirst
      cases hfirst
      exact ⟨type, item, ht, by rw [hc, Option.some_or], htext⟩

end Tuple

/-! ## Lowering -/

namespace Lower

section Steps
variable {o : Options} {st after last : State} {instr : Tuple.Instr} {instrs : List Tuple.Instr}
  {code : List Instr} {name : String}

/-- A name that is not declared keeps its slot. -/
theorem Lowered.slot_of_not_declares (h : Lowered o st instr code after)
    (hn : ¬ instr.Declares name) : after.slots.get? name = st.slots.get? name := by
  cases h with
  | fold =>
    rw [Tuple.Instr.declares_declare] at hn
    simp [Table.get?_set, hn]
  | _ => rfl

/-- A first declaration puts its literal into the slot, if it has one. -/
theorem Lowered.slot_of_declare {type : DataType} {value : Item} {slot : Slot}
    (h : Lowered o st (.declare name type value) code after) (hd : name ∉ st.declared)
    (hslot : st.slots.get? name = some slot) :
    after.slots.get? name = some ⟨slot.type, value.literalText?.getD slot.initial⟩ := by
  rw [Item.literalText?_eq]
  cases h with
  | fold _ hl htype =>
    rw [hslot] at htype
    obtain rfl : slot.type = _ := htype
    simp [Table.get?_set, hl]
  | declare hor _ =>
    rw [hor.resolve_left hd]
    exact hslot

/-- **A slot is decided by the first declaration of its name.** -/
theorem LoweredAll.slot_of_first (h : LoweredAll o st instrs code last) (hd : name ∉ st.declared)
    {slot : Slot} (hslot : st.slots.get? name = some slot) {type : DataType} {value : Item}
    (hfirst : instrs.findSome? (Tuple.Instr.declaration? name) = some (type, value)) :
    last.slots.get? name = some ⟨slot.type, value.literalText?.getD slot.initial⟩ := by
  induction h with
  | nil => cases hfirst
  | @cons st next last instr instrs code rest hi hrest ih =>
    rw [List.findSome?_cons] at hfirst
    cases hdecl : instr.declaration? name with
    | none =>
      -- The first declaration is still to come.
      rw [hdecl] at hfirst
      have hn := Tuple.Instr.declaration?_eq_none.mp hdecl
      refine ih ?_ ?_ hfirst
      · exact fun hmem => (hi.mem_declared.mp hmem).elim hd hn
      · rw [hi.slot_of_not_declares hn, hslot]
    | some declaration =>
      rw [hdecl] at hfirst
      cases hfirst
      obtain rfl := Tuple.Instr.declaration?_eq_some.mp hdecl
      rw [hrest.slot_of_declared (hi.mem_declared.mpr (.inr ⟨_, _, rfl⟩))]
      exact hi.slot_of_declare hd hslot

/-- No slot is added for a name that has one. -/
theorem Lowered.keys_eq (h : Lowered o st instr code after)
    (hkeys : ∀ key, instr.Declares key → key ∈ st.slots.keys) :
    after.slots.keys = st.slots.keys := by
  cases h with
  | @fold key _ _ _ _ _ _ =>
    refine (Table.keys_set _ _ _).trans (if_pos (hkeys key ⟨_, _, rfl⟩))
  | _ => rfl

theorem LoweredAll.keys_eq (h : LoweredAll o st instrs code last)
    (hkeys : ∀ instr ∈ instrs, ∀ key, instr.Declares key → key ∈ st.slots.keys) :
    last.slots.keys = st.slots.keys := by
  induction h with
  | nil => rfl
  | cons hi _ ih =>
    obtain ⟨hfirst, hothers⟩ := List.forall_mem_cons.mp hkeys
    have hnext := hi.keys_eq hfirst
    rw [← hnext] at hothers
    rw [ih hothers, hnext]

end Steps

/-! ## The table of a program -/

/-- The text in the data section for a variable of a given type that is first declared with
`value`. -/
def initialText (type : DataType) (value : Node) : String :=
  value.literalText?.getD (Slot.default type).initial

section Programs
variable {o : Options} {nodes : List Node} {p : Tuple.Program} {q : Program}

/-- The slots are those of the names that are declared, in order. -/
theorem keys_ofTuple (hp : Tuple.Program.ofStatements o nodes = .ok p)
    (hq : Program.ofTuple o p = .ok q) : q.slots.keys = Node.declaredNames nodes := by
  have hs := Tuple.ofStatements_eq_ok.mp hp
  obtain ⟨st, last, hst, hl, hslots⟩ := ofTuple_eq_ok.mp hq
  obtain ⟨-, rfl⟩ := ofVars_eq_ok.mp hst
  rw [hslots, hl.keys_eq, Table.keys_mapValues, Tuple.keys_ofStatements hp]
  -- What an instruction declares is in the table of flattening.
  intro instr hi key hd
  rw [Table.keys_mapValues, ← Table.contains_iff_mem_keys]
  exact (hs.enters Tuple.enters_nil key).mpr ⟨instr, hi, hd⟩

/-- The slot of a name has the type and the literal of its first declaration. -/
theorem slot_of_firstDeclaration? (hp : Tuple.Program.ofStatements o nodes = .ok p)
    (hq : Program.ofTuple o p = .ok q) {name typeName : String} {value : Node}
    (hfirst : Node.firstDeclaration? name nodes = some (typeName, value)) :
    ∃ type, DataType.ofName? typeName = some type ∧
      q.slots.get? name = some ⟨type, initialText type value⟩ := by
  have hs := Tuple.ofStatements_eq_ok.mp hp
  obtain ⟨type, item, htype, hitem, htext⟩ := hs.firstDeclaration?_eq hfirst
  obtain ⟨st, last, hst, hl, hslots⟩ := ofTuple_eq_ok.mp hq
  obtain ⟨-, rfl⟩ := ofVars_eq_ok.mp hst
  have hvar : p.vars.get? name = some type := by
    rw [hs.get?_eq name, Node.firstType?_eq_map, hfirst]
    simpa using htype
  have hstart : (p.vars.mapValues Slot.default).get? name = some (Slot.default type) := by
    simp [hvar]
  have hslot := hl.slot_of_first (by simp) hstart hitem
  rw [Slot.default_type, htext] at hslot
  exact ⟨type, htype, hslots ▸ hslot⟩

end Programs

/-! ## Statements without influence on the table -/

section Removal
variable {before behind : List Node} {node : Node}

/-- A statement declares nothing new behind others that declare its name. -/
def DeclaresNothingNew (before : List Node) (node : Node) : Prop :=
  ∀ name, node.declaredName? = some name → name ∈ Node.declaredNames before

theorem declaredNames_remove (h : DeclaresNothingNew before node) :
    Node.declaredNames (before ++ node :: behind) = Node.declaredNames (before ++ behind) := by
  unfold Node.declaredNames
  rw [List.filterMap_append, List.filterMap_append, List.filterMap_cons]
  cases hn : node.declaredName? with
  | none => rfl
  | some name =>
    have hm : name ∈ before.filterMap Node.declaredName? := List.mem_eraseDups.mp (h name hn)
    rw [List.eraseDups_append, List.eraseDups_append, List.removeAll, List.removeAll,
      List.filter_cons_of_neg (by simpa using hm)]

theorem firstDeclaration?_remove (h : DeclaresNothingNew before node) (name : String) :
    Node.firstDeclaration? name (before ++ node :: behind) =
      Node.firstDeclaration? name (before ++ behind) := by
  unfold Node.firstDeclaration?
  rw [List.findSome?_append, List.findSome?_append, List.findSome?_cons]
  cases hb : before.findSome? (Node.declaration? name) with
  | some declaration => rfl
  | none =>
    have hn : node.declaration? name = none := by
      refine Node.declaration?_eq_none.mpr fun hd => ?_
      exact Node.firstDeclaration?_eq_none.mp hb (h name hd)
    rw [hn]

end Removal

/-- **First declarations decide the table.**  Where statements are accepted, the slots are those of
the names that they declare, each once, in the order of their first declarations; a slot has the
type of the first declaration, and the text of its literal, or the initial value of the type if it
has none.  So a statement that declares nothing new has no influence: without it the table is the
same. -/
theorem slots_of_first_declarations {o : Options} {nodes : List Node} {p : Tuple.Program}
    {q : Program} (hp : Tuple.Program.ofStatements o nodes = .ok p)
    (hq : Program.ofTuple o p = .ok q) :
    q.slots.keys = Node.declaredNames nodes ∧ q.slots.keys.Nodup ∧
      (∀ name typeName value, Node.firstDeclaration? name nodes = some (typeName, value) →
        ∃ type, DataType.ofName? typeName = some type ∧
          q.slots.get? name = some ⟨type, initialText type value⟩) ∧
      ∀ before node behind, nodes = before ++ node :: behind → DeclaresNothingNew before node →
        ∀ o' p' q', Tuple.Program.ofStatements o' (before ++ behind) = .ok p' →
          Program.ofTuple o' p' = .ok q' → q'.slots = q.slots := by
  have hkeys := keys_ofTuple hp hq
  have hnodup : q.slots.keys.Nodup :=
    nodup_keys_ofTuple hq ((Tuple.ofStatements_eq_ok.mp hp).nodup_keys .nil)
  refine ⟨hkeys, hnodup, fun _ _ _ hfirst => slot_of_firstDeclaration? hp hq hfirst, ?_⟩
  rintro before node behind rfl hnew o' p' q' hp' hq'
  have hkeys' : q'.slots.keys = q.slots.keys := by
    rw [keys_ofTuple hp' hq', hkeys, declaredNames_remove hnew]
  refine Table.ext_get? (hkeys' ▸ hnodup) hkeys' fun name hname => ?_
  rw [keys_ofTuple hp' hq'] at hname
  obtain ⟨⟨typeName, value⟩, hfirst⟩ := Option.ne_none_iff_exists'.mp
    fun hnone => Node.firstDeclaration?_eq_none.mp hnone hname
  obtain ⟨type, htype, hslot⟩ := slot_of_firstDeclaration? hp' hq' hfirst
  rw [← firstDeclaration?_remove hnew] at hfirst
  obtain ⟨_, htype', hslot'⟩ := slot_of_firstDeclaration? hp hq hfirst
  rw [htype] at htype'
  cases htype'
  rw [hslot, hslot']

/-- A program that uses a name before its declaration, and declares names again with other types and
values. -/
def interleaved : List Node :=
  [.call "Output" [.ident "y" Pos.unknown] Pos.unknown,
    .decl "x" "Int32" (.int (-7) Pos.unknown) Pos.unknown,
    .decl "s" "String" (.str "say \"hi\"" Pos.unknown) Pos.unknown,
    .decl "y" "Int32" (.binary (.arith .add) (.ident "x" Pos.unknown) (.int 1 Pos.unknown)
      Pos.unknown) Pos.unknown,
    .decl "x" "String" .absent Pos.unknown,
    .decl "y" "Int32" (.int 3 Pos.unknown) Pos.unknown,
    .assign "x" (.int 4 Pos.unknown) Pos.unknown]

/-- Its table has the three names in order, with their first types and literals. -/
theorem slots_of_first_declarations_interleaved :
    ∃ p q, Tuple.Program.ofStatements { strict := false } interleaved = .ok p ∧
      Program.ofTuple { strict := false } p = .ok q ∧ q.slots.keys = ["x", "s", "y"] ∧
      q.slots.get? "x" = some ⟨.int32, "-7"⟩ ∧
      q.slots.get? "s" = some ⟨.string, "\"say \\\"hi\\\"\""⟩ ∧
      q.slots.get? "y" = some ⟨.int32, "0"⟩ := by
  have hp : Tuple.Program.ofStatements { strict := false } interleaved = .ok _ := rfl
  refine ⟨_, _, hp, rfl, ?_⟩
  obtain ⟨hkeys, -, hslot, -⟩ := slots_of_first_declarations hp rfl
  refine ⟨hkeys.trans (by decide), ?_, ?_, ?_⟩
  · obtain ⟨type, ⟨⟩, hx⟩ := hslot "x" _ _ rfl
    exact hx
  · obtain ⟨type, ⟨⟩, hs⟩ := hslot "s" _ _ rfl
    exact hs
  · obtain ⟨type, ⟨⟩, hy⟩ := hslot "y" _ _ rfl
    exact hy

end Lower
end Risclet
