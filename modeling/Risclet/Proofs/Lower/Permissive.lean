import Risclet.Proofs.Lower.DataTable
import Risclet.Proofs.Lower.Preservation
import Risclet.Proofs.Node.Hoist
import Risclet.Proofs.Tuple.Lawful

/-! # Names that are used before they are declared

Where declarations are not compulsory, a name can be used before it is declared, or without being
declared at all.  The literal of a first declaration is in the slot then too, and so it can be seen
before the declaration is reached.  Register code does not do what the statements say, but what they
say once the declarations whose literals are in the slots are taken first (`permissive_meaning`).

Behind these declarations tuple machine and register machine have the same memory (`Same`), with the
names that are never declared, and every instruction that is not one of these declarations keeps
them together (`Lowered.same`).
-/
namespace Risclet
namespace Lower

/-- A tuple machine and a register machine with the same variables and calls, where the register
machine has the results of the tuple machine. -/
structure Same (s : Tuple.Machine) (t : Machine) : Prop where
  world : t.toWorld = s.toWorld
  temps : ∀ id v, s.temps id = some v → t.regs (.temp id) = v

section Steps
variable {o : Options} {st after last : State} {instr : Tuple.Instr} {instrs : List Tuple.Instr}
  {code : List Instr} {item : Item} {name : String} {s s' : Tuple.Machine} {t : Machine}

theorem Same.serves (h : Same s t) (item : Item) : Serves s t item :=
  ⟨h.temps, fun name _ => by rw [h.world]⟩

theorem Stored.same (h : Stored name item code)
    (hinstr : instr = .assign name item ∨ ∃ type, instr = .declare name type item)
    (env : Environment) (hsame : Same s t) (hstep : s.step o instr = some s') :
    ∃ t', t.run env code = some t' ∧ Same s' t' := by
  rcases h.run_step env hinstr (hsame.serves item) hstep with
    ⟨-, rfl, rfl⟩ | ⟨-, v, regs, rfl, hrun, hregs⟩
  · exact ⟨t, rfl, hsame⟩
  · refine ⟨_, hrun, by rw [hsame.world], fun id v hid => ?_⟩
    exact (hregs id).trans (hsame.temps id v hid)

/-- An instruction that is not the first declaration of its name with an integer. -/
def NotFirst (declared : List String) (instr : Tuple.Instr) : Prop :=
  ∀ name type value, instr = .declare name type (.int value) → name ∈ declared

/-- **One instruction keeps the machines the same**, unless its integer is in the slot. -/
theorem Lowered.same (h : Lowered o st instr code after) (hfirst : NotFirst st.declared instr)
    (env : Environment) (hsame : Same s t) (hstep : s.step o instr = some s') :
    ∃ t', t.run env code = some t' ∧ Same s' t' := by
  cases h with
  | @fold name type literal value hd hl _ =>
    cases value with
    | int v => exact absurd (hfirst name type v rfl) hd
    | str text => cases hstep; exact ⟨t, rfl, hsame⟩
    | _ => cases hl
  | @declare name type value code _ hs => exact hs.same (.inr ⟨type, rfl⟩) env hsame hstep
  | @assign name value code hs => exact hs.same (.inl rfl) env hsame hstep
  | @call name arg load hload =>
    obtain ⟨v, hv, rfl⟩ := Option.map_eq_some_iff.mp hstep
    exact ⟨_, hload.run_call env (hsame.serves arg) hv (o.resolve name), by rw [hsame.world],
      by simp⟩
  | @binary op left right temp next last l r leftCode rightCode hl hr =>
    obtain ⟨a, ha, hstep⟩ := Option.bind_eq_some_iff.mp hstep
    obtain ⟨b, hb, hstep⟩ := Option.bind_eq_some_iff.mp hstep
    cases hstep
    obtain ⟨t', hrun, hw, htemps⟩ :=
      hl.run_binary env hr (hsame.serves left) (hsame.serves right) ha hb op temp
    exact ⟨t', hrun, hw.trans hsame.world, htemps⟩

theorem LoweredAll.same (h : LoweredAll o st instrs code last)
    (hfirst : ∀ instr ∈ instrs, NotFirst st.declared instr) (env : Environment)
    (hsame : Same s t) (hrun : s.run o instrs = some s') :
    ∃ t', t.run env code = some t' ∧ Same s' t' := by
  induction h generalizing s t with
  | nil => cases hrun; exact ⟨t, rfl, hsame⟩
  | @cons st next last instr instrs code rest hi _ ih =>
    obtain ⟨hhead, htail⟩ := List.forall_mem_cons.mp hfirst
    obtain ⟨mid, hstep, hrun⟩ := Option.bind_eq_some_iff.mp hrun
    obtain ⟨t₁, hrun₁, hsame₁⟩ := hi.same hhead env hsame hstep
    have htail' : ∀ other ∈ instrs, NotFirst next.declared other :=
      fun other ho name type value he => hi.declared_mono (htail other ho name type value he)
    obtain ⟨t₂, hrun₂, hsame₂⟩ := ih htail' hsame₁ hrun
    exact ⟨t₂, by rw [Machine.run_append, hrun₁]; exact hrun₂, hsame₂⟩

end Steps

/-! ## Statements -/

section Statements
variable {o : Options} {vars after last : Table DataType} {node : Node} {nodes : List Node}
  {instrs : List Tuple.Instr} {st next : State} {code : List Instr} {seen : List String}

/-- The code of a value declares nothing. -/
theorem declares_concat {item : Item} (hv : Tuple.Value o vars node instrs item)
    {instr : Tuple.Instr} {name : String} :
    (∃ i ∈ instrs ++ [instr], i.Declares name) ↔ instr.Declares name := by
  constructor
  · rintro ⟨i, hi, hd⟩
    rcases List.mem_append.mp hi with hi | hi
    · exact absurd hd (hv.not_declares i hi name)
    · exact List.mem_singleton.mp hi ▸ hd
  · exact fun hd => ⟨instr, List.mem_append_right _ List.mem_cons_self, hd⟩

/-- A statement declares what its instructions declare. -/
theorem declares_iff (hs : Tuple.Statement o vars node instrs after) {name : String} :
    (∃ i ∈ instrs, i.Declares name) ↔ node.declaredName? = some name := by
  cases hs with
  | declare _ _ => simp [Tuple.Instr.declares_declare, Node.declaredName?, eq_comm]
  | initialise _ _ hv _ =>
    rw [declares_concat hv, Tuple.Instr.declares_declare]
    simp [Node.declaredName?, eq_comm]
  | assign _ hv _ =>
    rw [declares_concat hv]
    simp [Tuple.Instr.Declares, Node.declaredName?]
  | call _ => simp [Tuple.Instr.Declares, Node.declaredName?]

/-- The name of a statement is declared once its code is lowered. -/
theorem declared_of_statement (hs : Tuple.Statement o vars node instrs after)
    (hl : LoweredAll o st instrs code next) (hseen : ∀ name, name ∈ st.declared ↔ name ∈ seen)
    (name : String) : name ∈ next.declared ↔ name ∈ node.seeing seen := by
  rw [hl.mem_declared, hseen, Node.mem_seeing, or_comm]
  exact or_congr_left (declares_iff hs)

/-- Of a declaration whose integer is in the slot no code is left. -/
theorem code_eq_nil (hs : Tuple.Statement o vars node instrs after)
    (hl : LoweredAll o st instrs code next) (hseen : ∀ name, name ∈ st.declared ↔ name ∈ seen)
    (hfirst : node.IsFirstLiteral seen) : code = [] := by
  obtain ⟨name, typeName, value, litPos, pos, rfl, hname⟩ := Node.isFirstLiteral_iff.mp hfirst
  cases hs with
  | initialise _ _ hv _ =>
    cases hv with
    | operand hop =>
      cases hop
      obtain ⟨⟩ | ⟨hi, ⟨⟩⟩ := hl
      cases hi with
      | fold => rfl
      | declare hor _ =>
        have hd := hor.resolve_right (by simp [Item.literalType?])
        exact absurd ((hseen name).mp hd) hname

/-- The code of any other statement has no such declaration. -/
theorem notFirst_of_statement (hs : Tuple.Statement o vars node instrs after)
    (hseen : ∀ name, name ∈ st.declared ↔ name ∈ seen) (hfirst : ¬ node.IsFirstLiteral seen) :
    ∀ instr ∈ instrs, NotFirst st.declared instr := by
  rintro instr hi name type value rfl
  have hdecl := (declares_iff hs).mp ⟨_, hi, type, _, rfl⟩
  cases hs with
  | declare _ _ => simp at hi
  | @initialise key typeName node pos _ first item _ _ hv _ =>
    obtain rfl : key = name := Option.some.inj hdecl
    have hitem : item = .int value := by
      rcases List.mem_append.mp hi with hi | hi
      · exact absurd ⟨_, _, rfl⟩ (hv.not_declares _ hi key)
      · cases List.mem_singleton.mp hi
        rfl
    subst hitem
    obtain ⟨⟨⟩⟩ := hv
    rw [hseen]
    exact Decidable.byContradiction fun hn => hfirst ⟨key, rfl, hn⟩
  | _ => cases hdecl

/-- **Register code does what the other statements say**, from any memory. -/
theorem LoweredAll.run_others (hs : Tuple.Statements o vars nodes instrs last)
    (hl : LoweredAll o st instrs code next) (hseen : ∀ name, name ∈ st.declared ↔ name ∈ seen)
    (hops : ∀ text, .foreign text ∉ Node.operatorsAll nodes) (env : Environment) (t : Machine) :
    ∃ t', t.run env code = some t' ∧
      Node.run o t.toWorld (Node.others seen nodes) = some t'.toWorld := by
  induction hs generalizing st code seen t with
  | nil =>
    cases hl
    exact ⟨t, rfl, rfl⟩
  | @cons vars mid last node nodes first rest hnode _ ih =>
    simp only [Node.operatorsAll, List.mem_append, not_or, forall_and] at hops
    obtain ⟨code₁, code₂, st', hl₁, hl₂, rfl⟩ := hl.of_append
    have hseen' := declared_of_statement hnode hl₁ hseen
    rw [Node.others, Machine.run_append]
    split
    · next hfirst =>
      rw [code_eq_nil hnode hl₁ hseen hfirst]
      exact ih hl₂ hseen' hops.2 t
    · next hfirst =>
      -- No result is handed on from one statement to the next.
      obtain ⟨s', hrun, hexec⟩ := hnode.run_eq hops.1 ⟨t.toWorld, fun _ => none⟩
      obtain ⟨t₁, hrun₁, hsame⟩ := hl₁.same (notFirst_of_statement hnode hseen hfirst) env
        ⟨rfl, by simp⟩ hrun
      obtain ⟨t₂, hrun₂, hothers⟩ := ih hl₂ hseen' hops.2 t₁
      refine ⟨t₂, by rw [hrun₁]; exact hrun₂, ?_⟩
      rw [Node.run_cons, hexec, ← hsame.world]
      exact hothers

end Statements

/-! ## The first contents of memory -/

/-- Memory begins as the slots say, and elsewhere with what is found there. -/
structure InitialisesOver (slots : Table Slot) (found m : Memory) : Prop where
  declared : Initialises slots m
  elsewhere : ∀ name, name ∉ slots.keys → m name = found name

section Programs
variable {o : Options} {nodes : List Node} {p : Tuple.Program} {q : Program}

theorem word?_initialText {value : Node} (h : ∀ text pos, value ≠ .str text pos) :
    word? (initialText .int32 value) =
      some ((value.intValue?.map (BitVec.ofInt 32)).getD 0) := by
  cases value with
  | int v pos => exact word?_toString v
  | str text pos => exact absurd rfl (h text pos)
  | _ => exact word?_zero

/-- An integer variable is not declared with a string. -/
theorem ne_str_of_declared (hp : Tuple.Program.ofStatements o nodes = .ok p) {name : String}
    {value : Node} {pos : Pos} (h : .decl name "Int32" value pos ∈ nodes) (text : String)
    (strPos : Pos) : value ≠ .str text strPos := by
  rintro rfl
  obtain ⟨i, hi⟩ := List.mem_iff_getElem?.mp h
  have hlawful := ((Tuple.ofStatements_eq_ok.mp hp).lawful Tuple.tracks_empty).1 i _ hi
  obtain ⟨_, _, he, -⟩ := hlawful.string text strPos rfl
  simp at he

/-- **Memory begins as first literals leave it**, if all variables are integers. -/
theorem run_firstLiterals_eq (hp : Tuple.Program.ofStatements o nodes = .ok p)
    (hq : Program.ofTuple o p = .ok q) (hint : Node.IntegersOnly nodes) {found m : Memory}
    (hm : InitialisesOver q.slots found m) :
    Node.run o (World.before nodes found) (Node.firstLiterals [] nodes) = some ⟨m, []⟩ := by
  obtain ⟨m', hrun, hm'⟩ := Node.run_firstLiterals o (World.before nodes found) [] nodes
  suffices hmem : m' = m by rw [hrun, hmem]; rfl
  funext name
  rw [hm', if_neg (by simp)]
  simp only [Node.firstWord?, World.before]
  cases hd : Node.firstDeclaration? name nodes with
  | none =>
    have hname := Node.firstDeclaration?_eq_none.mp hd
    rw [if_neg hname, hm.elsewhere name (by rwa [keys_ofTuple hp hq])]
    rfl
  | some declaration =>
    obtain ⟨typeName, value⟩ := declaration
    obtain ⟨pos, hmem⟩ := Node.mem_of_firstDeclaration? hd
    obtain rfl := hint _ hmem _ rfl
    have hname : name ∈ Node.declaredNames nodes := by
      refine Decidable.byContradiction fun hn => ?_
      rw [Node.firstDeclaration?_eq_none.mpr hn] at hd
      cases hd
    obtain ⟨type, ⟨⟩, hslot⟩ := slot_of_firstDeclaration? hp hq hd
    have hword := hm.declared name _ hslot
    rw [word?_initialText (ne_str_of_declared hp hmem)] at hword
    rw [if_pos hname]
    exact Option.some.inj hword

/-- Memory can begin so, whatever is found elsewhere. -/
theorem exists_initialisesOver (hp : Tuple.Program.ofStatements o nodes = .ok p)
    (hq : Program.ofTuple o p = .ok q) (found : Memory) :
    ∃ m, InitialisesOver q.slots found m := by
  obtain ⟨m, hm⟩ := exists_initialises (sound_ofTuple hp hq).1
  refine ⟨fun name => if name ∈ q.slots.keys then m name else found name, ?_, ?_⟩
  · intro name text hslot
    have hname : name ∈ q.slots.keys :=
      Table.contains_iff_mem_keys.mp (Table.contains_eq_true.mpr ⟨_, hslot⟩)
    exact (hm name text hslot).trans (congrArg some (if_pos hname).symm)
  · exact fun name hname => if_neg hname

/-- **Register code does what the statements say with their first literals taken first.** -/
theorem run_eq_hoist (hp : Tuple.Program.ofStatements o nodes = .ok p)
    (hq : Program.ofTuple o p = .ok q) (hint : Node.IntegersOnly nodes) {found m : Memory}
    (hm : InitialisesOver q.slots found m) (env : Environment) (regs : Registers) :
    ∃ t, Machine.run env ⟨⟨m, []⟩, regs⟩ q.instrs = some t ∧
      Node.run o (World.before nodes found) (Node.hoist nodes) = some t.toWorld := by
  obtain ⟨st, last, hst, hl, -⟩ := ofTuple_eq_ok.mp hq
  obtain ⟨-, rfl⟩ := ofVars_eq_ok.mp hst
  obtain ⟨-, hops⟩ := sound_ofTuple hp hq
  obtain ⟨t, hrun, hothers⟩ := LoweredAll.run_others (Tuple.ofStatements_eq_ok.mp hp) hl
    (fun name => Iff.rfl) hops env ⟨⟨m, []⟩, regs⟩
  refine ⟨t, hrun, ?_⟩
  rw [Node.hoist, Node.run_append, run_firstLiterals_eq hp hq hint hm]
  exact hothers

end Programs

/-- **Compilation without compulsory declarations.**  All variables are declared as integers, but
they may be used before they are declared, and other names may be used too; what these hold in the
beginning is up to `found`.  Whatever the registers hold, register code makes the calls of the
statements, and leaves their variables, where the first declarations that have an integer literal
are taken before all other statements.  If no statement uses a name before such a declaration, this
is what the statements do as they stand. -/
theorem permissive_meaning {o : Options} {nodes : List Node} {p : Tuple.Program} {q : Program}
    (hp : Tuple.Program.ofStatements o nodes = .ok p) (hq : Program.ofTuple o p = .ok q)
    (hint : Node.IntegersOnly nodes) (found : Memory) :
    ∃ w, Node.run o (World.before nodes found) (Node.hoist nodes) = some w ∧
      (Node.Prompt [] nodes → Node.run o (World.before nodes found) nodes = some w) ∧
      (∃ m, InitialisesOver q.slots found m) ∧
      ∀ (env : Environment) (regs : Registers) (m : Memory), InitialisesOver q.slots found m →
        ∃ t, Machine.run env ⟨⟨m, []⟩, regs⟩ q.instrs = some t ∧ t.events = w.events ∧
          t.memory = w.memory := by
  obtain ⟨m, hm⟩ := exists_initialisesOver hp hq found
  obtain ⟨t, -, hsource⟩ := run_eq_hoist hp hq hint hm ⟨fun _ => 0, fun _ _ => 0⟩ fun _ => 0
  refine ⟨t.toWorld, hsource, fun hprompt => ?_, ⟨m, hm⟩, fun env regs m hm => ?_⟩
  · rw [← Node.run_hoist hprompt]
    exact hsource
  · obtain ⟨t', hrun, hsource'⟩ := run_eq_hoist hp hq hint hm env regs
    have hw : t.toWorld = t'.toWorld := Option.some.inj (hsource.symm.trans hsource')
    exact ⟨t', hrun, by rw [hw], by rw [hw]⟩

/-- A program that uses a name before its declaration, and another that has none. -/
def forward : List Node :=
  [.assign "y" (.binary (.arith .add) (.ident "ghost" Pos.unknown) (.int 1 Pos.unknown)
      Pos.unknown) Pos.unknown,
    .call "Output" [.ident "y" Pos.unknown] Pos.unknown,
    .decl "x" "Int32" (.int 5 Pos.unknown) Pos.unknown,
    .decl "y" "Int32" .absent Pos.unknown,
    .assign "ghost" (.ident "x" Pos.unknown) Pos.unknown,
    .decl "y" "Int32" (.ident "ghost" Pos.unknown) Pos.unknown,
    .call "Output" [.ident "y" Pos.unknown] Pos.unknown]

/-- Where the name without declaration holds 41, it puts out 42 and 5, as the statements say. -/
theorem permissive_meaning_forward :
    ∃ p q w, Tuple.Program.ofStatements { strict := false } forward = .ok p ∧
      Program.ofTuple { strict := false } p = .ok q ∧
      Node.IntegersOnly forward ∧ Node.Prompt [] forward ∧
      Node.run { strict := false } (World.before forward fun _ => 41) forward = some w ∧
      (∃ m, InitialisesOver q.slots (fun _ => 41) m) ∧
      ∀ (env : Environment) (regs : Registers) (m : Memory),
        InitialisesOver q.slots (fun _ => 41) m →
        ∃ t, Machine.run env ⟨⟨m, []⟩, regs⟩ q.instrs = some t ∧
          t.events = [⟨"print_int", 42⟩, ⟨"print_int", 5⟩] ∧ t.memory "ghost" = 5 := by
  have hp : Tuple.Program.ofStatements { strict := false } forward = .ok _ := rfl
  have hint : Node.IntegersOnly forward := by decide
  have hprompt : Node.Prompt [] forward := by decide
  obtain ⟨w, hw, hsource, hm, hall⟩ := permissive_meaning hp rfl hint (fun _ => 41)
  refine ⟨_, _, w, hp, rfl, hint, hprompt, hsource hprompt, hm, fun env regs m hm => ?_⟩
  obtain ⟨t, ht, hevents, hmem⟩ := hall env regs m hm
  cases hw
  refine ⟨t, ht, hevents.trans ?_, ?_⟩
  · decide
  · rw [hmem]; decide

/-- A program that puts out a variable before it is declared. -/
def premature : List Node :=
  [.call "Output" [.ident "x" Pos.unknown] Pos.unknown,
    .decl "x" "Int32" (.int 5 Pos.unknown) Pos.unknown]

/-- **A literal can be seen before its declaration.**  The statements put out zero; register code
puts out the literal. -/
theorem premature_literal_seen :
    ∃ p q, Tuple.Program.ofStatements { strict := false } premature = .ok p ∧
      Program.ofTuple { strict := false } p = .ok q ∧
      Node.IntegersOnly premature ∧
      ∀ found, (∃ m, InitialisesOver q.slots found m) ∧
        (∃ w, Node.run { strict := false } (World.before premature found) premature = some w ∧
          w.events = [⟨"print_int", 0⟩]) ∧
        ∀ (env : Environment) (regs : Registers) (m : Memory), InitialisesOver q.slots found m →
          ∃ t, Machine.run env ⟨⟨m, []⟩, regs⟩ q.instrs = some t ∧
            t.events = [⟨"print_int", 5⟩] := by
  have hp : Tuple.Program.ofStatements { strict := false } premature = .ok _ := rfl
  have hint : Node.IntegersOnly premature := by decide
  refine ⟨_, _, hp, rfl, hint, fun found => ?_⟩
  refine ⟨exists_initialisesOver hp rfl found, ⟨_, rfl, ?_⟩, fun env regs m hm => ?_⟩
  · rfl
  · have hword : some 5 = some (m "x") := (word?_toString 5).symm.trans (hm.declared "x" "5" rfl)
    exact ⟨_, rfl, congrArg (fun v => [Event.mk "print_int" v]) (Option.some.inj hword).symm⟩

end Lower
end Risclet
