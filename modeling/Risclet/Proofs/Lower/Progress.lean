import Risclet.Proofs.Assembly.Halves
import Risclet.Proofs.Lower.Slots

/-! # Lowering accepts what flattening makes

Flattening and lowering each keep track of which variables have been declared, and each checks
literals against types.  The two agree: of the tuple programs that flattening makes, lowering
rejects only those with an operator that is none of the four, and what it makes of the others has
a listing.

What carries the proof is the relation `Joint vars final st` between the table `vars` that
flattening has reached, the table `final` that it ends with, and the state `st` of lowering: the
same names are declared in both, and the slots have the types of the final table from the
beginning.  Every statement keeps it (`joint_statement`), because a variable's type never changes
once it is in the table.
-/
namespace Risclet

namespace Lower

/-! ## Tame code -/

/-- The registers that compiled programs use. -/
def scratch : List Register :=
  [.param 0, .var 0, .var 1, .temp 0]

/-- An instruction that works on the scratch registers and on integers of 32 bits. -/
structure Tame (instr : Instr) : Prop where
  known : instr.Known
  registers : ∀ r ∈ instr.registers, r ∈ scratch
  literals : ∀ v ∈ instr.literals, IsInt32 v

theorem Tame.encodable {instr : Instr} (h : Tame instr) : Assembly.Encodable instr := by
  have hbank : ∀ r ∈ scratch, Assembly.InBank r := by decide
  exact ⟨h.known, fun r hr => hbank r (h.registers r hr)⟩

/-- A slot that an assembler can fill: with a 32-bit integer, or with a string. -/
inductive Slot.Sound : Slot → Prop where
  | int {value : Int} : IsInt32 value → Sound ⟨.int32, toString value⟩
  | string (value : String) : Sound ⟨.string, Text.Quoted.quote value⟩

theorem Slot.Sound.hasStorage {slot : Slot} (h : slot.Sound) : slot.type.HasStorage := by
  cases h with
  | int _ => exact .inl rfl
  | string _ => exact .inr rfl

theorem Slot.Sound.placeable {slot : Slot} (h : slot.Sound) : Assembly.Placeable slot := by
  cases h with
  | int _ => exact .inl rfl
  | string value => exact .inr ⟨value, rfl⟩

theorem Slot.Sound.int_of_type {slot : Slot} (h : slot.Sound) (ht : slot.type = .int32) :
    ∃ value, IsInt32 value ∧ slot.initial = toString value := by
  cases h with
  | int hv => exact ⟨_, hv, rfl⟩
  | string _ => cases ht

theorem Slot.sound_default {t : DataType} (h : t.HasStorage) : (Slot.default t).Sound := by
  rcases h with rfl | rfl
  · have hz : IsInt32 0 := by decide
    exact Sound.int hz
  · exact Sound.string ""

/-- The items that values are flattened to. -/
inductive Plain : Item → Prop where
  | absent : Plain .absent
  | int {value : Int} : IsInt32 value → Plain (.int value)
  | str (value : String) : Plain (.str value)
  | ident (name : String) : Plain (.ident name)
  | temp : Plain (.temp 0)

section Code
variable {o : Options} {vars : Table DataType} {node : Node} {item : Item}

theorem plain_of_operand (h : Tuple.Operand o vars node item) : Plain item := by
  cases h with
  | int hv => exact .int hv
  | ident _ => exact .ident _

theorem plain_of_value {code : List Tuple.Instr} (h : Tuple.Value o vars node code item) :
    Plain item := by
  cases h with
  | operand hop => exact plain_of_operand hop
  | string => exact .str _
  | operation _ _ => exact .temp

/-- An operand can be loaded into any of the scratch registers. -/
theorem loaded_of_operand (h : Tuple.Operand o vars node item) {dest : Register}
    (hd : dest ∈ scratch) : ∃ instr, Loaded dest item instr ∧ Tame instr := by
  cases h with
  | @int value _ hv =>
    refine ⟨_, .int value, trivial, ?_, ?_⟩
    · simpa [Instr.registers] using hd
    · simpa [Instr.literals] using hv
  | @ident name _ _ =>
    refine ⟨_, .ident name, trivial, ?_, ?_⟩
    · simpa [Instr.registers] using hd
    · simp [Instr.literals]

/-- Every plain item but a string can be stored. -/
theorem stored_of_plain (h : Plain item) (name : String)
    (hs : item.literalType? ≠ some .string) :
    ∃ code, Stored name item code ∧ ∀ i ∈ code, Tame i := by
  have store : ∀ source ∈ scratch, Tame (.storeVar name (.var 0) source) := by
    intro source hsource
    refine ⟨trivial, ?_, by simp [Instr.literals]⟩
    simpa [Instr.registers, scratch] using hsource
  have hv1 : Register.var 1 ∈ scratch := by decide
  cases h with
  | absent => exact ⟨_, .absent, by simp⟩
  | @int value hv =>
    refine ⟨_, .int value, List.forall_mem_cons.mpr ⟨⟨trivial, ?_, ?_⟩, ?_⟩⟩
    · simpa [Instr.registers] using hv1
    · simpa [Instr.literals] using hv
    · simpa using store _ hv1
  | str value => exact absurd rfl hs
  | ident source =>
    refine ⟨_, .ident source, List.forall_mem_cons.mpr ⟨⟨trivial, ?_, ?_⟩, ?_⟩⟩
    · simpa [Instr.registers] using hv1
    · simp [Instr.literals]
    · simpa using store _ hv1
  | temp => exact ⟨_, .temp 0, by simpa using store _ (by decide)⟩

/-- The code of an operation on two operands. -/
theorem lowered_operation {left right : Node} {l r : Item} (hl : Tuple.Operand o vars left l)
    (hr : Tuple.Operand o vars right r) (op : Arith) (st : State) :
    ∃ code, Lowered o st (.binary (.arith op) l r 0) code st ∧ ∀ i ∈ code, Tame i := by
  obtain ⟨i, hi, hti⟩ := loaded_of_operand hl (show Register.var 0 ∈ scratch by decide)
  obtain ⟨j, hj, htj⟩ := loaded_of_operand hr (show Register.var (0 + 1) ∈ scratch by decide)
  refine ⟨_, .binary (.loaded hi) (.loaded hj), ?_⟩
  have hop : Tame (.binary (.arith op) (.temp 0) (.var 0) (.var (0 + 1))) :=
    ⟨trivial, by simp [Instr.registers, scratch], by simp [Instr.literals]⟩
  simpa using ⟨hti, htj, hop⟩

end Code

/-! ## The two stages side by side -/

/-- How far the two stages have come: `vars` is the table of flattening, `final` the table that it
ends with, and `st` the state of lowering. -/
structure Joint (vars final : Table DataType) (st : State) : Prop where
  declared : ∀ name, name ∈ st.declared ↔ vars.contains name = true
  types : ∀ name, (st.slots.get? name).map Slot.type = final.get? name
  sound : ∀ e ∈ st.slots.entries, e.2.Sound

/-- The failure of a program with a foreign operator. -/
def foreignFailure (text : String) : Failure :=
  .fault (.foreignOperation text) Pos.unknown

section Joint
variable {o : Options} {vars after final last : Table DataType} {st : State}

theorem joint_initial (h : ∀ e ∈ final.entries, e.2.HasStorage) :
    Joint Table.empty final { slots := final.mapValues Slot.default } := by
  refine ⟨fun name => by simp [Table.contains], fun name => ?_, ?_⟩
  · rw [Table.get?_mapValues]
    cases final.get? name <;> simp
  · intro e he
    obtain ⟨⟨name, t⟩, hm, rfl⟩ := List.mem_map.mp he
    exact Slot.sound_default (h _ hm)

/-- A declaration whose value passed the check of flattening passes that of lowering. -/
theorem Joint.declaration (hj : Joint vars final st) {name : String} {type : DataType}
    {item : Item} (hf : final.get? name = some ((vars.get? name).getD type)) (hp : Plain item)
    (hs : Tuple.Storable (some ((vars.get? name).getD type)) (!vars.contains name) item) :
    ∃ code next, Lowered o st (.declare name type item) code next ∧ (∀ i ∈ code, Tame i) ∧
      Joint (Tuple.declare vars name type) final next := by
  have hdeclared : ∀ key, key ∈ (st.declare name).declared ↔
      (Tuple.declare vars name type).contains key = true := fun key => by
    rw [State.mem_declared_declare, Tuple.contains_declare, hj.declared]
  -- The literal of a first declaration goes into the slot; everything else is stored.
  by_cases hfold : name ∉ st.declared ∧ ∃ literal, item.literalType? = some literal
  · obtain ⟨hd, literal, hl⟩ := hfold
    have hnone : vars.get? name = none :=
      Table.contains_eq_false.mp (by simpa [hj.declared] using hd)
    simp only [hnone, Option.getD_none] at hf hs
    have htype : ((st.slots.get? name).map Slot.type).getD type = literal := by
      rw [hj.types, hf]
      exact (hs literal hl).2 type rfl
    obtain rfl : type = literal := (hs literal hl).2 type rfl
    refine ⟨[], _, .fold hd hl htype, by simp, hdeclared, fun key => ?_, fun e he => ?_⟩
    · rw [Table.get?_set]
      split
      · next he => rw [he, hf]; rfl
      · exact hj.types key
    · rcases Table.mem_entries_set he with he | rfl
      · exact hj.sound e he
      · cases hp with
        | int hv => cases hl; exact .int hv
        | str value => cases hl; exact .string value
        | _ => cases hl
  · have hor : name ∈ st.declared ∨ item.literalType? = none := by
      by_cases hd : name ∈ st.declared
      · exact .inl hd
      · exact .inr (Option.eq_none_iff_forall_not_mem.mpr fun l hl => hfold ⟨hd, l, hl⟩)
    have hstr : item.literalType? ≠ some .string := by
      intro hl
      rcases hor with hd | hn
      · have := (hs _ hl).1 rfl
        simp [(hj.declared name).mp hd] at this
      · rw [hn] at hl; cases hl
    obtain ⟨code, hc, ht⟩ := stored_of_plain hp name hstr
    exact ⟨code, _, .declare hor hc, ht, hdeclared, hj.types, hj.sound⟩

/-- The code of a value, unless its operator is foreign. -/
theorem value_lowered {node : Node} {code : List Tuple.Instr} {item : Item}
    (h : Tuple.Value o vars node code item) (st : State) :
    (∃ out, LoweredAll o st code out st ∧ (∀ i ∈ out, Tame i) ∧
        ∀ text, .foreign text ∉ node.operators) ∨
      ∃ text, .foreign text ∈ node.operators ∧
        ∀ rest, (lowerAll o st (code ++ rest)).2 = .error (foreignFailure text) := by
  cases h with
  | operand hop =>
    exact .inl ⟨[], .nil, by simp, by simp [hop.operators_eq]⟩
  | string => exact .inl ⟨[], .nil, by simp, by simp [Node.operators]⟩
  | @operation op left right _ l r hl hr =>
    have hops : Node.operators (.binary op left right ‹Pos›) = [op] := by
      rw [Node.operators, hl.operators_eq, hr.operators_eq]
      rfl
    rw [hops]
    cases op with
    | arith op =>
      obtain ⟨out, ho, ht⟩ := lowered_operation hl hr op st
      refine .inl ⟨out ++ [], .cons ho .nil, ?_, by simp⟩
      simpa using ht
    | foreign text => exact .inr ⟨text, by simp, fun rest => rfl⟩

/-- The code of a value and the instruction behind it, unless the operator of the value is
foreign. -/
theorem value_then_lowered {node : Node} {code : List Tuple.Instr} {item : Item}
    {instr : Tuple.Instr} {second : List Instr} {next : State}
    (h : Tuple.Value o vars node code item) (hl : Lowered o st instr second next)
    (ht : ∀ i ∈ second, Tame i) :
    (∃ out, LoweredAll o st (code ++ [instr]) out next ∧ (∀ i ∈ out, Tame i) ∧
        ∀ text, .foreign text ∉ node.operators) ∨
      ∃ text, .foreign text ∈ node.operators ∧
        ∀ rest, (lowerAll o st (code ++ [instr] ++ rest)).2 = .error (foreignFailure text) := by
  rcases value_lowered h st with ⟨out, hout, htout, hno⟩ | ⟨text, hmem, herr⟩
  · refine .inl ⟨_, hout.append (.cons hl .nil), ?_, hno⟩
    simpa [or_imp, forall_and] using ⟨htout, ht⟩
  · exact .inr ⟨text, hmem, fun rest => by rw [List.append_assoc]; exact herr _⟩

/-- **One statement keeps the two stages together**, unless it has a foreign operator. -/
theorem Joint.statement (hj : Joint vars final st) {node : Node} {code : List Tuple.Instr}
    (h : Tuple.Statement o vars node code after)
    (hfinal : ∀ name type, after.get? name = some type → final.get? name = some type) :
    (∃ out next, LoweredAll o st code out next ∧ (∀ i ∈ out, Tame i) ∧ Joint after final next ∧
        ∀ text, .foreign text ∉ node.operators) ∨
      ∃ text, .foreign text ∈ node.operators ∧
        ∀ rest, (lowerAll o st (code ++ rest)).2 = .error (foreignFailure text) := by
  cases h with
  | @declare name typeName pos type ht hr =>
    have hf := hfinal name ((vars.get? name).getD type) (by simp [Tuple.get?_declare])
    obtain ⟨out, next, hl, htame, hjn⟩ := hj.declaration hf .absent (fun _ h => by cases h)
    refine .inl ⟨out ++ [], next, .cons hl .nil, ?_, hjn, by simp [Node.operators]⟩
    simpa using htame
  | @initialise name typeName value pos type first item ht hr hv hs =>
    have hf := hfinal name ((vars.get? name).getD type) (by simp [Tuple.get?_declare])
    obtain ⟨out, next, hl, htame, hjn⟩ := hj.declaration hf (plain_of_value hv) hs
    have hops : Node.operators (.decl name typeName value pos) = value.operators := by
      rw [Node.operators]
    rw [hops]
    refine (value_then_lowered hv hl htame).imp_left ?_
    rintro ⟨out, hout, htout, hno⟩
    exact ⟨out, next, hout, htout, hjn, hno⟩
  | @assign name value pos first item hu hv hs =>
    have hstr : item.literalType? ≠ some .string := fun hl => by
      have := (hs _ hl).1 rfl
      cases this
    obtain ⟨out, hstore, htame⟩ := stored_of_plain (plain_of_value hv) name hstr
    have hops : Node.operators (.assign name value pos) = value.operators := by
      rw [Node.operators]
    rw [hops]
    refine (value_then_lowered hv (.assign hstore) htame).imp_left ?_
    rintro ⟨out, hout, htout, hno⟩
    exact ⟨out, st, hout, htout, hj, hno⟩
  | @call name arg pos item hop =>
    obtain ⟨i, hi, ht⟩ := loaded_of_operand hop (show Register.param 0 ∈ scratch by decide)
    have hops : Node.operators (.call name [arg] pos) = [] := by
      rw [Node.operators, Node.operatorsAll, hop.operators_eq]
      rfl
    have hcall : Tame (.call (o.resolve name)) :=
      ⟨trivial, by simp [Instr.registers], by simp [Instr.literals]⟩
    refine .inl ⟨_, st, .cons (.call hi) .nil, ?_, hj, by simp [hops]⟩
    simpa using ⟨ht, hcall⟩

/-- **Statements keep the two stages together** up to the first foreign operator. -/
theorem Joint.statements (hj : Joint vars last st) {nodes : List Node}
    {instrs : List Tuple.Instr} (h : Tuple.Statements o vars nodes instrs last) :
    (∃ out next, LoweredAll o st instrs out next ∧ (∀ i ∈ out, Tame i) ∧
        (∀ e ∈ next.slots.entries, e.2.Sound) ∧ ∀ text, .foreign text ∉ Node.operatorsAll nodes) ∨
      ∃ text, .foreign text ∈ Node.operatorsAll nodes ∧
        (lowerAll o st instrs).2 = .error (foreignFailure text) := by
  induction h generalizing st with
  | nil => exact .inl ⟨[], st, .nil, by simp, hj.sound, by simp [Node.operatorsAll]⟩
  | @cons vars next last node nodes code rest hs hrest ih =>
    rcases hj.statement hs (fun _ _ ht => hrest.get?_mono ht) with
      ⟨out, mid, hl, htame, hjm, hno⟩ | ⟨text, hmem, herr⟩
    · rcases ih hjm with ⟨more, final, hl', htame', hsound, hno'⟩ | ⟨text, hmem, herr⟩
      · refine .inl ⟨out ++ more, final, hl.append hl', ?_, hsound, ?_⟩
        · simpa [or_imp, forall_and] using ⟨htame, htame'⟩
        · simpa [Node.operatorsAll] using fun text => ⟨hno text, hno' text⟩
      · refine .inr ⟨text, by simp [Node.operatorsAll, hmem], ?_⟩
        rw [lowerAll_append hl]
        simp only [herr, Outcome.map_error]
    · exact .inr ⟨text, by simp [Node.operatorsAll, hmem], herr rest⟩

end Joint

/-! ## Progress -/

/-- What lowering makes of a flattened program, or why it makes nothing. -/
theorem ofTuple_flattened {o : Options} {nodes : List Node} {p : Tuple.Program}
    (h : Tuple.Program.ofStatements o nodes = .ok p) :
    (∃ q, Program.ofTuple o p = .ok q ∧ (∀ i ∈ q.instrs, Tame i) ∧
        (∀ e ∈ q.slots.entries, e.2.Sound) ∧ ∀ text, .foreign text ∉ Node.operatorsAll nodes) ∨
      ∃ text, .foreign text ∈ Node.operatorsAll nodes ∧
        Program.ofTuple o p = .error (foreignFailure text) := by
  have hs := Tuple.ofStatements_eq_ok.mp h
  have hstorage := hs.hasStorage (by simp [Table.empty])
  have hvars := ofVars_eq_ok.mpr ⟨hstorage, rfl⟩
  rcases (joint_initial hstorage).statements hs with ⟨out, last, hl, ht, hsound, hno⟩ |
    ⟨text, hmem, herr⟩
  · exact .inl ⟨⟨out, last.slots⟩, ofTuple_eq_ok.mpr ⟨_, last, hvars, hl, rfl⟩, ht, hsound, hno⟩
  · refine .inr ⟨text, hmem, ?_⟩
    rw [Program.ofTuple, build, hvars]
    simp only [herr, Outcome.map_error]

section Accepted
variable {o : Options} {nodes : List Node} {p : Tuple.Program} {q : Program}

/-- What lowering accepts has tame code, its slots can be filled, and no operator is foreign. -/
theorem tame_ofTuple (hp : Tuple.Program.ofStatements o nodes = .ok p)
    (hq : Program.ofTuple o p = .ok q) :
    (∀ i ∈ q.instrs, Tame i) ∧ (∀ e ∈ q.slots.entries, e.2.Sound) ∧
      ∀ text, .foreign text ∉ Node.operatorsAll nodes := by
  rcases ofTuple_flattened hp with ⟨q', hq', haccepted⟩ | ⟨text, -, herr⟩
  · obtain rfl : q = q' := Except.ok.inj (hq.symm.trans hq')
    exact haccepted
  · rw [hq] at herr
    cases herr

/-- What lowering accepts has no foreign operator, and its slots can be filled. -/
theorem sound_ofTuple (hp : Tuple.Program.ofStatements o nodes = .ok p)
    (hq : Program.ofTuple o p = .ok q) :
    (∀ e ∈ q.slots.entries, e.2.Sound) ∧ ∀ text, .foreign text ∉ Node.operatorsAll nodes :=
  (tame_ofTuple hp hq).2

/-- What lowering accepts has a listing. -/
theorem exists_emit (hp : Tuple.Program.ofStatements o nodes = .ok p)
    (hq : Program.ofTuple o p = .ok q) : ∃ text, Assembly.emit o q = .ok text := by
  obtain ⟨htame, hsound, -⟩ := tame_ofTuple hp hq
  exact Assembly.emit_of_encodable o (fun i hi => (htame i hi).encodable)
    fun e he => (hsound e he).hasStorage

end Accepted

/-- **Progress of the later stages.**  If flattening accepts some statements, lowering fails exactly
if one of their operators is none of the four, and then for that reason; and whatever it makes has
a listing, uses no registers but the four scratch registers, and loads and begins with integers of
32 bits only.

Where the texts may hold halves of surrogate pairs, it has the same listing as without them, unless
a string variable begins with a text that holds one: the first of these is reported, and that is all
that can go wrong. -/
theorem lowering_progress {o : Options} {nodes : List Node} {p : Tuple.Program}
    (h : Tuple.Program.ofStatements o nodes = .ok p) :
    ((∃ f, Program.ofTuple o p = .error f) ↔
        ∃ text, .foreign text ∈ Node.operatorsAll nodes) ∧
      (∀ f, Program.ofTuple o p = .error f → ∃ e, f = .rejected e ∧ e.fault.kind = .operation ∧
        ∃ text, .foreign text ∈ Node.operatorsAll nodes ∧ e.fault = .foreignOperation text) ∧
      ∀ q, Program.ofTuple o p = .ok q →
        (∃ text, Assembly.emit o q = .ok text) ∧
        (∀ i ∈ q.instrs, ∀ r ∈ i.registers,
          r = .param 0 ∨ r = .var 0 ∨ r = .var 1 ∨ r = .temp 0) ∧
        (∀ i ∈ q.instrs, ∀ v ∈ i.literals, IsInt32 v) ∧
        (∀ e ∈ q.slots.entries, e.2.type = .int32 → ∃ v, IsInt32 v ∧ e.2.initial = toString v) ∧
        ∀ h : Text.Halves,
          (∀ text, Assembly.emitIn h o q = .ok text ↔
            Assembly.emit o q = .ok text ∧ ∀ fault, ¬ Assembly.FirstHalf h q.slots fault) ∧
          ∀ f, Assembly.emitIn h o q = .error f ↔
            ∃ fault, f = .unencodable fault ∧ Assembly.FirstHalf h q.slots fault := by
  rcases ofTuple_flattened h with ⟨q, hq, htame, hsound, hno⟩ | ⟨text, hmem, herr⟩
  · refine ⟨⟨fun ⟨f, hf⟩ => ?_, fun ⟨text, hmem⟩ => absurd hmem (hno text)⟩, fun f hf => ?_, ?_⟩
    · rw [hq] at hf; cases hf
    · rw [hq] at hf; cases hf
    · intro q' hq'
      obtain rfl : q = q' := Except.ok.inj (hq.symm.trans hq')
      have hencodable : ∀ i ∈ q.instrs, Assembly.Encodable i := fun i hi => (htame i hi).encodable
      have hplaceable : ∀ e ∈ q.slots.entries, Assembly.Placeable e.2 :=
        fun e he => (hsound e he).placeable
      refine ⟨?_, fun i hi r hr => ?_, fun i hi => (htame i hi).literals,
        fun e he ht => (hsound e he).int_of_type ht,
        fun h => ⟨fun text => Assembly.emitIn_eq_ok hencodable hplaceable,
          fun f => Assembly.emitIn_eq_error hencodable hplaceable⟩⟩
      · exact Assembly.emit_of_encodable o hencodable fun e he => (hsound e he).hasStorage
      · simpa [scratch] using (htame i hi).registers r hr
  · refine ⟨⟨fun _ => ⟨text, hmem⟩, fun _ => ⟨_, herr⟩⟩, fun f hf => ?_, fun q hq => ?_⟩
    · rw [herr] at hf
      obtain rfl := Except.error.inj hf
      exact ⟨_, rfl, rfl, text, hmem, rfl⟩
    · rw [herr] at hq; cases hq

/-- A program with an operator that the language does not have. -/
def remainder : List Node :=
  [.decl "x" "Int32" (.int 7 Pos.unknown) Pos.unknown,
    .assign "x" (.binary (.foreign "%") (.ident "x" Pos.unknown) (.int 2 Pos.unknown) Pos.unknown)
      Pos.unknown]

/-- It is flattened without complaint and fails in the next stage. -/
theorem lowering_progress_remainder :
    ∃ p, Tuple.Program.ofStatements {} remainder = .ok p ∧
      ∃ f, Program.ofTuple {} p = .error f := by
  have hp : Tuple.Program.ofStatements {} remainder = .ok _ := rfl
  exact ⟨_, hp, (lowering_progress hp).1.mpr
    ⟨"%", by simp [remainder, Node.operatorsAll, Node.operators]⟩⟩

/-- A variable that begins with a half of a surrogate pair in its text is flattened and lowered, and
has no listing. -/
theorem half_without_listing :
    ∃ p q, Tuple.Program.ofStatements {}
        [.decl "s" "String" (.str "a\uE000" Pos.unknown) Pos.unknown] = .ok p ∧
      Program.ofTuple {} p = .ok q ∧
      Assembly.emitIn .firstOfAll {} q = .error (.unencodable ⟨1, 2, 0xD800⟩) ∧
      (⟨1, 2, 0xD800⟩ : Text.EncodeFault).message =
        "'utf-8' codec can't encode character '\\ud800' in position 1: surrogates not allowed" :=
  ⟨_, _, rfl, rfl, rfl, by decide⟩

end Lower
end Risclet
