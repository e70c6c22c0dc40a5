import Risclet.Proofs.Assembly.Symbols
import Risclet.Tuple.Session

/-! # Appending statements

What is generated for some statements is the beginning of what is generated for them and others
behind.  For flattening this is how it works: it takes one statement after the other, enters new
names at the end, and a statement that is rejected ends it.

Lowering is another matter, because it begins with a slot for every variable of the whole program
and puts literals into slots on its way.  Two runs on the same instructions are compared, from the
shorter and from the longer table.  Each step does the same to both as long as the shorter table has
the names that are declared, so the shorter one stays the beginning of the longer (`State.Begins`,
`LoweredAll.begins`).  When the first statements are done, all their names have been declared, and
nothing behind them changes these slots any more (`LoweredAll.slots_kept`).  The data section
follows the slots, and its padding depends only on what stands before.
-/
namespace Risclet

/-! ## Flattening -/

namespace Tuple

variable {o : Options} {vars after last : Table DataType} {node : Node} {nodes : List Node}
  {code instrs : List Instr}

/-- The answers to requests, each in the light of the variables that the ones before it left. -/
def answers (o : Options) (vars : Table DataType) : List Request → List (Except Error Answer)
  | [] => []
  | request :: requests =>
    (answer o vars request).2 :: answers o (answer o vars request).1 requests

/-- **A rejected statement ends it**, whatever stands behind. -/
theorem flattenAll_append_of_error {e : Error} (h : flattenAll o vars nodes = (last, .error e))
    (rest : List Node) : flattenAll o vars (nodes ++ rest) = (last, .error e) := by
  induction nodes generalizing vars with
  | nil => cases h
  | cons node nodes ih =>
    rw [List.cons_append]
    rw [flattenAll] at h ⊢
    split at h
    · exact h
    · next next code hf =>
      obtain ⟨hlast, hr⟩ := Prod.mk.inj h
      rw [ih (Prod.ext hlast (Outcome.map_eq_error.mp hr))]
      rfl

theorem build_append_of_error {e : Error} (h : build o nodes = (last, .error e))
    (rest : List Node) : build o (nodes ++ rest) = (last, .error e) := by
  obtain ⟨hlast, hr⟩ := Prod.mk.inj h
  rw [build, flattenAll_append_of_error (Prod.ext hlast (Outcome.map_eq_error.mp hr))]
  rfl

/-- **A statement enters new names at the end.** -/
theorem Statement.entries_isPrefix (h : Statement o vars node code after) :
    vars.entries <+: after.entries := by
  rw [h.entries_eq]
  exact List.prefix_append _ _

theorem Statements.entries_isPrefix (h : Statements o vars nodes instrs last) :
    vars.entries <+: last.entries := by
  induction h with
  | nil => exact List.prefix_rfl
  | cons hs _ ih => exact hs.entries_isPrefix.trans ih

theorem Statement.answer_eq (h : Statement o vars node code after) :
    answer o vars (.statement node) = (after, .ok (.code code)) := by
  rw [answer, flatten_eq_ok.mpr h]
  rfl

/-- Asked for one at a time, statements have the same instructions as together. -/
theorem Statements.answers_eq (h : Statements o vars nodes instrs last) :
    ∃ codes : List (List Instr), instrs = codes.flatten ∧
      answers o vars (nodes.map .statement) = codes.map (fun code => .ok (.code code)) := by
  induction h with
  | nil => exact ⟨[], rfl, rfl⟩
  | cons hs _ ih =>
    obtain ⟨codes, rfl, hc⟩ := ih
    refine ⟨_ :: codes, List.flatten_cons.symm, ?_⟩
    rw [List.map_cons, answers, hs.answer_eq, hc, List.map_cons]

/-- A request for a program forgets the variables from before. -/
theorem Statements.answer_program (h : Statements o Table.empty nodes instrs last)
    (vars : Table DataType) :
    answer o vars (.program nodes) = (last, .ok (.program ⟨instrs, last⟩)) := by
  rw [answer, build, flattenAll_eq_ok.mpr h]
  rfl

end Tuple

/-! ## Lowering -/

namespace Lower

variable {o : Options} {st whole next last : State} {instr : Tuple.Instr}
  {instrs : List Tuple.Instr} {code : List Instr}

/-- The state `st` has come as far as `whole`, with a table of slots that is the beginning of the
other one. -/
structure State.Begins (st whole : State) : Prop where
  declared : whole.declared = st.declared
  slots : st.slots.entries <+: whole.slots.entries

theorem State.Begins.declare (h : st.Begins whole) (name : String) :
    (st.declare name).Begins (whole.declare name) := by
  refine ⟨?_, h.slots⟩
  rw [State.declare, State.declare, h.declared]

/-- **An instruction on slots of the shorter table does the same to both.** -/
theorem Lowered.begins (h : Lowered o whole instr code next) (hb : st.Begins whole)
    (hkeys : ∀ name, instr.Declares name → name ∈ st.slots.keys) :
    ∃ after, Lowered o st instr code after ∧ after.Begins next := by
  cases h with
  | @fold name type literal value hd hl ht =>
    have hname := hkeys name ⟨_, _, rfl⟩
    rw [hb.declared] at hd
    rw [Table.get?_of_isPrefix hb.slots hname] at ht
    exact ⟨_, .fold hd hl ht, (hb.declare name).declared,
      Table.entries_set_isPrefix hb.slots hname _⟩
  | declare hor hs =>
    rw [hb.declared] at hor
    exact ⟨_, .declare hor hs, hb.declare _⟩
  | assign hs => exact ⟨st, .assign hs, hb⟩
  | call hl => exact ⟨st, .call hl, hb⟩
  | binary hl hr => exact ⟨st, .binary hl hr, hb⟩

theorem LoweredAll.begins (h : LoweredAll o whole instrs code last) (hb : st.Begins whole)
    (hkeys : ∀ instr ∈ instrs, ∀ name, instr.Declares name → name ∈ st.slots.keys) :
    ∃ after, LoweredAll o st instrs code after ∧ after.Begins last := by
  induction h generalizing st with
  | nil => exact ⟨st, .nil, hb⟩
  | cons hi _ ih =>
    obtain ⟨hfirst, hothers⟩ := List.forall_mem_cons.mp hkeys
    obtain ⟨mid, hmid, hbmid⟩ := hi.begins hb hfirst
    rw [← hmid.keys_eq hfirst] at hothers
    obtain ⟨after, hafter, hbafter⟩ := ih hbmid hothers
    exact ⟨after, .cons hmid hafter, hbafter⟩

/-- **Slots of declared names stay in front as they are.** -/
theorem Lowered.slots_kept (h : Lowered o st instr code next) {front : List (String × Slot)}
    (hf : front <+: st.slots.entries) (hd : ∀ e ∈ front, e.1 ∈ st.declared) :
    front <+: next.slots.entries := by
  cases h with
  | @fold name _ _ _ hnew _ _ =>
    refine Table.isPrefix_entries_set hf (fun hm => ?_) _
    obtain ⟨e, he, rfl⟩ := List.mem_map.mp hm
    exact hnew (hd e he)
  | _ => exact hf

theorem LoweredAll.slots_kept (h : LoweredAll o st instrs code last)
    {front : List (String × Slot)} (hf : front <+: st.slots.entries)
    (hd : ∀ e ∈ front, e.1 ∈ st.declared) : front <+: last.slots.entries := by
  induction h with
  | nil => exact hf
  | cons hi _ ih => exact ih (hi.slots_kept hf hd) fun e he => hi.declared_mono (hd e he)

/-- A program that enters what it declares and is the beginning of another is lowered to the
beginning of what the other is lowered to. -/
theorem ofTuple_of_isPrefix {p whole : Tuple.Program} {r : Program}
    (henters : Tuple.Enters p.instrs p.vars) (hinstrs : p.instrs <+: whole.instrs)
    (hvars : p.vars.entries <+: whole.vars.entries) (h : Program.ofTuple o whole = .ok r) :
    ∃ q, Program.ofTuple o p = .ok q ∧ q.instrs <+: r.instrs ∧
      q.slots.entries <+: r.slots.entries := by
  obtain ⟨start, last, hstart, hl, hslots⟩ := ofTuple_eq_ok.mp h
  obtain ⟨hstorage, rfl⟩ := ofVars_eq_ok.mp hstart
  obtain ⟨rest, hrest⟩ := hinstrs
  rw [← hrest] at hl
  obtain ⟨code, more, mid, hfirst, hmore, hcode⟩ := hl.of_append
  have hkeys : ∀ name, name ∈ (p.vars.mapValues Slot.default).keys ↔
      ∃ instr ∈ p.instrs, instr.Declares name := by
    intro name
    rw [Table.keys_mapValues, ← Table.contains_iff_mem_keys]
    exact henters name
  have hbegins : State.Begins { slots := p.vars.mapValues Slot.default }
      { slots := whole.vars.mapValues Slot.default } := ⟨rfl, hvars.map _⟩
  have hfound : ∀ instr ∈ p.instrs, ∀ name, instr.Declares name →
      name ∈ (p.vars.mapValues Slot.default).keys :=
    fun instr hi name hd => (hkeys name).mpr ⟨instr, hi, hd⟩
  obtain ⟨after, hafter, hb⟩ := hfirst.begins hbegins hfound
  have hown := ofVars_eq_ok.mpr ⟨fun e he => hstorage e (hvars.subset he), rfl⟩
  refine ⟨⟨code, after.slots⟩, ofTuple_eq_ok.mpr ⟨_, after, hown, hafter, rfl⟩, ?_, ?_⟩
  · exact ⟨more, hcode.symm⟩
  · rw [hslots]
    refine hmore.slots_kept hb.slots fun e he => ?_
    -- All slots of the shorter run belong to names that it has declared.
    have hkey : e.1 ∈ after.slots.keys := List.mem_map_of_mem he
    rw [hafter.keys_eq hfound, hkeys] at hkey
    rw [hb.declared]
    exact hafter.mem_declared.mpr (.inr hkey)

end Lower

/-! ## The listing -/

namespace Assembly

/-- A program that is the beginning of one with a listing has a listing, and its data section is the
beginning of the other one. -/
theorem emit_of_isPrefix {o : Options} {p whole : Lower.Program} {text : String}
    (hinstrs : p.instrs <+: whole.instrs) (hslots : p.slots.entries <+: whole.slots.entries)
    (h : emit o whole = .ok text) :
    (∃ own, emit o p = .ok own) ∧ ∃ lines more, dataSection p.slots = .ok lines ∧
      dataSection whole.slots = .ok (lines ++ more) := by
  obtain ⟨program, hprogram, -⟩ := Outcome.map_eq_ok.mp h
  obtain ⟨data, hdata, hprogram⟩ := Outcome.bind_eq_ok.mp hprogram
  obtain ⟨code, hcode, -⟩ := Outcome.bind_eq_ok.mp hprogram
  have hdata := Outcome.mapError_eq_ok.mp hdata
  obtain ⟨others, hothers⟩ := hinstrs
  obtain ⟨rest, hrest⟩ := hslots
  rw [← hothers] at hcode
  obtain ⟨first, -, hfirst, -⟩ := codeOf_of_append hcode
  rw [dataSection, ← hrest] at hdata
  obtain ⟨lines, more, hlines, rfl⟩ := dataFrom_of_append hdata
  refine ⟨⟨_, by rw [emit, Program.ofLower, dataSection, hlines, hfirst]; rfl⟩, lines, more,
    hlines, ?_⟩
  rw [dataSection, ← hrest, hdata]

end Assembly

/-! ## All stages -/

/-- Everything in `part` is the beginning of its counterpart in `whole`. -/
structure Generation.Begins (part whole : Generation) : Prop where
  instrs : part.tuple.instrs <+: whole.tuple.instrs
  vars : part.tuple.vars.entries <+: whole.tuple.vars.entries
  code : part.lower.instrs <+: whole.lower.instrs
  slots : part.lower.slots.entries <+: whole.lower.slots.entries
  data : ∃ lines more, Assembly.dataSection part.lower.slots = .ok lines ∧
    Assembly.dataSection whole.lower.slots = .ok (lines ++ more)

/-- **Appending statements changes nothing that was made before.**  Statements that flattening
rejects are rejected for the same reason, with the same variables left, whatever is appended.  And
where all stages accept statements `p` and `q` together, they accept `p` alone: its tuple
instructions, variables, register instructions, slots and data lines are the first ones of the
whole.  The other tuple instructions are those of `q`, asked for one statement at a time after
`p`. -/
theorem generate_append (o : Options) (p q : List Node) :
    (∀ left e, Tuple.build o p = (left, .error e) → Tuple.build o (p ++ q) = (left, .error e)) ∧
      ∀ whole, generate o (p ++ q) = .ok whole →
        ∃ (part : Generation) (codes : List (List Tuple.Instr)),
          generate o p = .ok part ∧ part.Begins whole ∧
          whole.tuple.instrs = part.tuple.instrs ++ codes.flatten ∧
          ∀ vars, Tuple.answers o vars (.program p :: q.map .statement) =
            .ok (.program part.tuple) :: codes.map (fun code => .ok (.code code)) := by
  refine ⟨fun left e h => Tuple.build_append_of_error h q, fun whole h => ?_⟩
  obtain ⟨htuple, hlower, hemit⟩ := generate_eq_ok.mp h
  obtain ⟨first, more, vars, hp, hq, hinstrs⟩ := (Tuple.ofStatements_eq_ok.mp htuple).of_append
  obtain ⟨codes, rfl, hcodes⟩ := hq.answers_eq
  have hfront : first <+: whole.tuple.instrs := ⟨_, hinstrs.symm⟩
  obtain ⟨lower, hown, hcode, hslots⟩ :=
    Lower.ofTuple_of_isPrefix (p := ⟨first, vars⟩) (hp.enters Tuple.enters_nil) hfront
      hq.entries_isPrefix hlower
  obtain ⟨⟨assembly, htext⟩, hdata⟩ := Assembly.emit_of_isPrefix hcode hslots hemit
  refine ⟨⟨⟨first, vars⟩, lower, assembly⟩, codes, ?_, ?_, hinstrs, fun old => ?_⟩
  · exact generate_eq_ok.mpr ⟨Tuple.ofStatements_eq_ok.mpr hp, hown, htext⟩
  · exact ⟨hfront, hq.entries_isPrefix, hcode, hslots, hdata⟩
  · rw [Tuple.answers, hp.answer_program, hcodes]

/-- Statements that end with a string of three bytes. -/
def opening : List Node :=
  [.decl "x" "Int32" (.int 5 Pos.unknown) Pos.unknown,
    .decl "s" "String" (.str "abc" Pos.unknown) Pos.unknown]

/-- Statements that declare the names of `opening` again, and other names. -/
def sequel : List Node :=
  [.decl "x" "Int32" (.int 7 Pos.unknown) Pos.unknown,
    .decl "y" "Int32" (.binary (.arith .add) (.ident "x" Pos.unknown) (.int 1 Pos.unknown)
      Pos.unknown) Pos.unknown,
    .decl "s" "Int32" .absent Pos.unknown,
    .decl "z" "Int32" (.int 9 Pos.unknown) Pos.unknown]

/-- The new slots come behind a line for alignment; the old ones stay.  An error stays, too. -/
theorem generate_append_sequel :
    (∃ part whole, generate {} opening = .ok part ∧ generate {} (opening ++ sequel) = .ok whole ∧
      part.Begins whole ∧
      Assembly.dataSection whole.lower.slots = .ok [.word "x" "5", .ascii "s" "\"abc\"", .align,
        .word "y" "0", .word "z" "9"]) ∧
    Tuple.build {} (opening ++ [.assign "t" (.int 1 Pos.unknown) Pos.unknown] ++ sequel) =
      (⟨[("x", .int32), ("s", .string)]⟩, .error ⟨.undeclaredName "t", Pos.unknown⟩) := by
  constructor
  · have hwhole : generate {} (opening ++ sequel) = .ok _ := rfl
    obtain ⟨part, codes, hpart, hbegins, -⟩ := (generate_append {} opening sequel).2 _ hwhole
    exact ⟨part, _, hpart, hwhole, hbegins, rfl⟩
  · exact (generate_append {} _ sequel).1 _ _ rfl

end Risclet
