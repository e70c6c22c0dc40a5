import Risclet.Proofs.Meaning
import Risclet.Proofs.Node.Parts

/-! # Literals of first declarations, taken first

The integer literal of a name's first declaration can be in memory from the beginning.  What runs
then are not the statements as they were written, but those in which such declarations stand before
all others (`hoist`).

It makes no difference where no statement uses a name before its literal is declared (`Prompt`),
because a declaration can be exchanged with statements that have nothing to do with its name
(`exec_store`).  Main statements: `run_hoist`, and `run_firstLiterals` for the memory in which the
other statements begin.
-/
namespace Risclet

theorem Memory.set_comm (m : Memory) {name key : String} (h : key ≠ name) (u v : Word) :
    (m.set name v).set key u = (m.set key u).set name v := by
  funext other
  by_cases hk : other = key
  · subst hk
    rw [set_self, set_other _ _ h, set_self]
  · by_cases hn : other = name
    · subst hn
      rw [set_other _ _ hk, set_self, set_self]
    · rw [set_other _ _ hk, set_other _ _ hn, set_other _ _ hn, set_other _ _ hk]

theorem World.store_comm (w : World) {name key : String} (h : key ≠ name) (u v : Word) :
    (w.store name v).store key u = (w.store key u).store name v := by
  simp only [World.store, Memory.set_comm w.memory h]

/-- Where statements begin: what they declare is zero, and other names have what is found there. -/
def World.before (nodes : List Node) (found : Memory) : World :=
  ⟨fun name => if name ∈ Node.declaredNames nodes then 0 else found name, []⟩

namespace Node

/-- The value of an integer literal. -/
def intValue? : Node → Option Int
  | .int value _ => some value
  | _ => none

/-- The name that a statement declares with an integer literal. -/
def literalName? : Node → Option String
  | .decl name _ (.int _ _) _ => some name
  | _ => none

/-- A declaration, with an integer literal, of a name that is not in `seen`. -/
def IsFirstLiteral (seen : List String) (node : Node) : Prop :=
  ∃ name ∈ node.literalName?, name ∉ seen

instance (seen : List String) (node : Node) : Decidable (node.IsFirstLiteral seen) :=
  inferInstanceAs (Decidable (∃ name ∈ node.literalName?, name ∉ seen))

/-- The names in `seen` and the one that a statement declares. -/
def seeing (seen : List String) (node : Node) : List String :=
  node.declaredName?.toList ++ seen

/-- The first declarations that have an integer literal, where `seen` are declared before. -/
def firstLiterals (seen : List String) : List Node → List Node
  | [] => []
  | node :: nodes =>
    if node.IsFirstLiteral seen then node :: firstLiterals (node.seeing seen) nodes
    else firstLiterals (node.seeing seen) nodes

/-- All statements but those in `firstLiterals`. -/
def others (seen : List String) : List Node → List Node
  | [] => []
  | node :: nodes =>
    if node.IsFirstLiteral seen then others (node.seeing seen) nodes
    else node :: others (node.seeing seen) nodes

/-- The statements with the first declarations that have an integer literal before all others. -/
def hoist (nodes : List Node) : List Node :=
  firstLiterals [] nodes ++ others [] nodes

/-- No statement uses a name before the name is first declared, if that is with an integer literal;
`seen` are declared before. -/
def Prompt (seen : List String) (nodes : List Node) : Prop :=
  ∀ before name typeName value litPos pos behind,
    nodes = before ++ .decl name typeName (.int value litPos) pos :: behind →
    name ∉ seen → name ∉ declaredNames before → ∀ node ∈ before, name ∉ node.uses

section Statements
variable {o : Options} {w : World} {seen : List String} {node : Node} {nodes : List Node}
  {name : String}

@[simp] theorem run_nil (o : Options) (w : World) : run o w [] = some w := rfl

@[simp] theorem run_cons (o : Options) (w : World) (node : Node) (nodes : List Node) :
    run o w (node :: nodes) = (exec o w node).bind (run o · nodes) := rfl

theorem run_append (o : Options) (w : World) (nodes rest : List Node) :
    run o w (nodes ++ rest) = (run o w nodes).bind (run o · rest) :=
  List.foldlM_append

theorem mem_seeing :
    name ∈ node.seeing seen ↔ node.declaredName? = some name ∨ name ∈ seen := by
  simp [seeing]

/-- It does not matter whether a statement counts as seen or as one of those that follow. -/
theorem not_mem_seeing :
    name ∉ node.seeing seen ∧ name ∉ declaredNames nodes ↔
      name ∉ seen ∧ name ∉ declaredNames (node :: nodes) := by
  have hcons : name ∈ declaredNames (node :: nodes) ↔
      node.declaredName? = some name ∨ name ∈ declaredNames nodes := by
    simp [declaredNames, List.mem_eraseDups]
  rw [mem_seeing, hcons, not_or, not_or]
  exact and_assoc.trans and_left_comm

theorem isFirstLiteral_iff : node.IsFirstLiteral seen ↔
    ∃ name typeName value litPos pos, node = .decl name typeName (.int value litPos) pos ∧
      name ∉ seen := by
  constructor
  · rintro ⟨name, hname, hseen⟩
    unfold literalName? at hname
    split at hname
    · cases hname
      exact ⟨name, _, _, _, _, rfl, hseen⟩
    · cases hname
  · rintro ⟨name, typeName, value, litPos, pos, rfl, hseen⟩
    exact ⟨name, rfl, hseen⟩

/-! ## Exchange of statements -/

/-- A value does not depend on variables that it does not read. -/
theorem value?_set (h : name ∉ node.names) (m : Memory) (v : Word) :
    node.value? (m.set name v) = node.value? m := by
  induction node using value?.induct with
  | case1 value pos => rw [value?, value?]
  | case2 key pos =>
    rw [names, List.mem_singleton] at h
    rw [value?, value?, Memory.set_other _ _ (Ne.symm h)]
  | case3 op left right pos ihl ihr =>
    rw [names, List.mem_append, not_or] at h
    rw [value?, value?, ihl h.1, ihr h.2]
  | case4 node hint hident hbinary =>
    rw [value?.eq_4 _ _ hint hident hbinary, value?.eq_4 _ _ hint hident hbinary]

/-- **A statement can be exchanged with a store to a variable** that it neither uses nor
declares. -/
theorem exec_store (huse : name ∉ node.uses) (hdecl : node.declaredName? ≠ some name)
    (o : Options) (w : World) (v : Word) :
    exec o (w.store name v) node = (exec o w node).map (·.store name v) := by
  have hval : ∀ value, name ∉ names value →
      value.value? (w.store name v).memory = value.value? w.memory :=
    fun value hvalue => value?_set hvalue w.memory v
  -- What is assigned or declared is another variable.
  have hother : ∀ key value, key ≠ name → name ∉ names value →
      (value.value? (w.store name v).memory).map ((w.store name v).store key) =
        ((value.value? w.memory).map (w.store key)).map (·.store name v) := by
    intro key value hkey hvalue
    rw [hval value hvalue, Option.map_map]
    exact Option.map_congr fun u _ => w.store_comm hkey u v
  cases node with
  | decl key typeName value pos =>
    have hkey : key ≠ name := fun he => hdecl (congrArg some he)
    have hvalue : name ∉ names value := by simpa [uses, names] using huse
    cases value with
    | absent | str => rfl
    | _ => exact hother key _ hkey hvalue
  | assign key value pos =>
    obtain ⟨hkey, hvalue⟩ : name ≠ key ∧ name ∉ names value := by simpa [uses] using huse
    exact hother key value hkey.symm hvalue
  | call callee args pos =>
    rcases args with _ | ⟨arg, _ | ⟨second, rest⟩⟩
    · rfl
    · have harg : name ∉ names arg := by simpa [uses, names, namesAll] using huse
      rw [exec, exec, hval arg harg, Option.map_map]
      rfl
    · rfl
  | _ => rfl

/-- The declaration of a literal is a store. -/
theorem exec_literal (o : Options) (w : World) (name typeName : String) (value : Int)
    (litPos pos : Pos) :
    exec o w (.decl name typeName (.int value litPos) pos) =
      some (w.store name (BitVec.ofInt 32 value)) := by
  simp [exec, value?]

/-- A statement can be exchanged with declarations of literals, if it has nothing to do with their
names. -/
theorem run_exchange {literals rest : List Node}
    (h : ∀ d ∈ literals, ∃ name typeName value litPos pos,
      d = .decl name typeName (.int value litPos) pos ∧ name ∉ node.uses ∧
        node.declaredName? ≠ some name) (o : Options) (w : World) :
    run o w (literals ++ node :: rest) = run o w (node :: (literals ++ rest)) := by
  induction literals generalizing w with
  | nil => rfl
  | cons d literals ih =>
    obtain ⟨hfirst, hrest⟩ := List.forall_mem_cons.mp h
    obtain ⟨name, typeName, value, litPos, pos, rfl, huse, hdecl⟩ := hfirst
    rw [List.cons_append, run_cons, exec_literal, Option.bind_some, ih hrest, run_cons,
      exec_store huse hdecl, Option.bind_map, run_cons]
    refine Option.bind_congr fun w' _ => ?_
    rw [Function.comp, List.cons_append, run_cons, exec_literal, Option.bind_some]

/-- First literals have no declaration of their names before them. -/
theorem mem_firstLiterals {d : Node} : d ∈ firstLiterals seen nodes ↔
    ∃ before name typeName value litPos pos behind,
      d = .decl name typeName (.int value litPos) pos ∧ nodes = before ++ d :: behind ∧
        name ∉ seen ∧ name ∉ declaredNames before := by
  constructor
  · intro h
    induction nodes generalizing seen with
    | nil => cases h
    | cons node nodes ih =>
      have hmem : node.IsFirstLiteral seen ∧ d = node ∨
          d ∈ firstLiterals (node.seeing seen) nodes := by
        rw [firstLiterals] at h
        split at h
        · next hnode => exact (List.mem_cons.mp h).imp_left fun he => ⟨hnode, he⟩
        · exact .inr h
      rcases hmem with ⟨hnode, rfl⟩ | hd
      · obtain ⟨name, typeName, value, litPos, pos, he, hseen⟩ := isFirstLiteral_iff.mp hnode
        exact ⟨[], name, typeName, value, litPos, pos, nodes, he, rfl, hseen,
          by simp [declaredNames]⟩
      · obtain ⟨before, name, typeName, value, litPos, pos, behind, he, rfl, hname⟩ := ih hd
        exact ⟨node :: before, name, typeName, value, litPos, pos, behind, he, rfl,
          not_mem_seeing.mp hname⟩
  · rintro ⟨before, name, typeName, value, litPos, pos, behind, rfl, rfl, hname⟩
    induction before generalizing seen with
    | nil =>
      have hnode : IsFirstLiteral seen (.decl name typeName (.int value litPos) pos) :=
        ⟨name, rfl, hname.1⟩
      rw [List.nil_append, firstLiterals, if_pos hnode]
      exact List.mem_cons_self
    | cons node before ih =>
      have hd := ih (not_mem_seeing.mpr hname)
      rw [List.cons_append, firstLiterals]
      split
      · exact List.mem_cons_of_mem _ hd
      · exact hd

/-- Statements are prompt if the first does not use the names of literals behind it. -/
theorem prompt_cons : Prompt seen (node :: nodes) ↔
    (∀ name ∈ (firstLiterals (node.seeing seen) nodes).filterMap declaredName?,
      name ∉ node.uses) ∧ Prompt (node.seeing seen) nodes := by
  constructor
  · intro h
    refine ⟨fun name hname => ?_, ?_⟩
    · obtain ⟨d, hd, hdecl⟩ := List.mem_filterMap.mp hname
      obtain ⟨before, key, typeName, value, litPos, pos, behind, rfl, rfl, hkey⟩ :=
        mem_firstLiterals.mp hd
      obtain rfl : key = name := Option.some.inj hdecl
      obtain ⟨hseen, hbefore⟩ := not_mem_seeing.mp hkey
      exact h (node :: before) key typeName value litPos pos behind rfl hseen hbefore node
        List.mem_cons_self
    · rintro before name typeName value litPos pos behind rfl hseen hbefore other hother
      obtain ⟨hseen, hbefore⟩ := not_mem_seeing.mp ⟨hseen, hbefore⟩
      exact h (node :: before) name typeName value litPos pos behind rfl hseen hbefore other
        (List.mem_cons_of_mem _ hother)
  · rintro ⟨hfirst, hrest⟩ before name typeName value litPos pos behind he hseen hbefore
    cases before with
    | nil => simp
    | cons first before =>
      obtain ⟨rfl, rfl⟩ := List.cons.inj he
      obtain ⟨hseen, hbefore⟩ := not_mem_seeing.mpr ⟨hseen, hbefore⟩
      have hd := mem_firstLiterals.mpr
        ⟨before, name, typeName, value, litPos, pos, behind, rfl, rfl, hseen, hbefore⟩
      exact List.forall_mem_cons.mpr ⟨hfirst name (List.mem_filterMap.mpr ⟨_, hd, rfl⟩),
        hrest before name typeName value litPos pos behind rfl hseen hbefore⟩

/-- Whether statements are prompt can be checked. -/
instance decidablePrompt : (seen : List String) → (nodes : List Node) →
    Decidable (Prompt seen nodes)
  | _, [] => isTrue (by intro before; simp)
  | seen, node :: nodes =>
    have : Decidable (Prompt (node.seeing seen) nodes) := decidablePrompt _ nodes
    decidable_of_iff _ prompt_cons.symm

theorem Prompt.run_eq (h : Prompt seen nodes) (o : Options) (w : World) :
    run o w (firstLiterals seen nodes ++ others seen nodes) = run o w nodes := by
  induction nodes generalizing seen w with
  | nil => rfl
  | cons node nodes ih =>
    obtain ⟨hfirst, hrest⟩ := prompt_cons.mp h
    rw [firstLiterals, others, run_cons]
    split
    · rw [List.cons_append, run_cons]
      exact Option.bind_congr fun w' _ => ih hrest w'
    · rw [run_exchange, run_cons]
      · exact Option.bind_congr fun w' _ => ih hrest w'
      · intro d hd
        obtain ⟨_, name, typeName, value, litPos, pos, _, rfl, -, hseen, -⟩ :=
          mem_firstLiterals.mp hd
        refine ⟨name, typeName, value, litPos, pos, rfl, ?_, ?_⟩
        · exact hfirst name (List.mem_filterMap.mpr ⟨_, hd, rfl⟩)
        · exact fun hdecl => hseen (mem_seeing.mpr (.inl hdecl))

/-- **Prompt statements may be run with their first literals taken first.** -/
theorem run_hoist (h : Prompt [] nodes) (o : Options) (w : World) :
    run o w (hoist nodes) = run o w nodes :=
  h.run_eq o w

/-! ## The memory behind the literals -/

/-- The word that a name has from its first declaration, if that has an integer literal. -/
def firstWord? (name : String) (nodes : List Node) : Option Word :=
  (firstDeclaration? name nodes).bind (fun d => d.2.intValue?.map (BitVec.ofInt 32))

theorem firstWord?_cons_other (h : node.declaredName? ≠ some name) :
    firstWord? name (node :: nodes) = firstWord? name nodes := by
  rw [firstWord?, firstDeclaration?, List.findSome?_cons, declaration?_eq_none.mpr h]
  rfl

theorem firstWord?_cons_literal (name typeName : String) (value : Int) (litPos pos : Pos)
    (nodes : List Node) :
    firstWord? name (.decl name typeName (.int value litPos) pos :: nodes) =
      some (BitVec.ofInt 32 value) := by
  simp [firstWord?, firstDeclaration?, declaration?, intValue?]

/-- A first declaration without integer literal gives no word. -/
theorem firstWord?_cons_eq_none (h : ¬ node.IsFirstLiteral seen)
    (hname : node.declaredName? = some name) (hseen : name ∉ seen) :
    firstWord? name (node :: nodes) = none := by
  cases node with
  | decl key typeName value pos =>
    obtain rfl : key = name := Option.some.inj hname
    cases value with
    | int => exact absurd ⟨key, rfl, hseen⟩ h
    | _ => simp [firstWord?, firstDeclaration?, declaration?, intValue?]
  | _ => cases hname

/-- **First literals are in memory** once their declarations have run, and all else is as before. -/
theorem run_firstLiterals (o : Options) (w : World) (seen : List String) (nodes : List Node) :
    ∃ m, run o w (firstLiterals seen nodes) = some ⟨m, w.events⟩ ∧
      ∀ name, m name =
        if name ∈ seen then w.memory name else (firstWord? name nodes).getD (w.memory name) := by
  induction nodes generalizing seen w with
  | nil => exact ⟨w.memory, rfl, fun name => by simp [firstWord?, firstDeclaration?]⟩
  | cons node nodes ih =>
    rw [firstLiterals]
    split
    · next hnode =>
      obtain ⟨key, typeName, value, litPos, pos, rfl, hkey⟩ := isFirstLiteral_iff.mp hnode
      obtain ⟨m, hrun, hm⟩ := ih (w.store key (BitVec.ofInt 32 value)) (seeing seen _)
      refine ⟨m, by rw [run_cons, exec_literal]; exact hrun, fun name => ?_⟩
      rw [hm name]
      by_cases he : name = key
      · subst he
        rw [if_pos (mem_seeing.mpr (.inl rfl)), if_neg hkey, firstWord?_cons_literal]
        exact Memory.set_self _ _ _
      · have hdecl : declaredName? (.decl key typeName (.int value litPos) pos) ≠ some name :=
          fun hn => he (Option.some.inj hn).symm
        have hstore : (w.store key (BitVec.ofInt 32 value)).memory name = w.memory name :=
          Memory.set_other _ _ he
        simp only [mem_seeing, hdecl, false_or, hstore, firstWord?_cons_other hdecl]
    · next hnode =>
      obtain ⟨m, hrun, hm⟩ := ih w (node.seeing seen)
      refine ⟨m, hrun, fun name => ?_⟩
      rw [hm name]
      by_cases hdecl : node.declaredName? = some name
      · rw [if_pos (mem_seeing.mpr (.inl hdecl))]
        split
        · rfl
        · next hseen => rw [firstWord?_cons_eq_none hnode hdecl hseen]; rfl
      · simp only [mem_seeing, hdecl, false_or, firstWord?_cons_other hdecl]

end Statements
end Node
end Risclet
