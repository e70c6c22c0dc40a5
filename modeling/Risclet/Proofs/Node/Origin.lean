import Risclet.Node.Parse
import Risclet.Proofs.Node.Parts
import Risclet.Proofs.Token.Places

/-! # What the parser makes comes from its tokens

Every position in a tree that the parser makes is that of a token, and a rejection is at a token or
right behind one.  The trees are in order: all operators are among the four, and nothing is missing
but an initialiser (`Node.Placed`).  Besides rejecting its tokens the parser can fail in one way
only, at a numeral that is too long to be read.

Each parsing function is treated in turn, on tokens out of a fixed list (`Traced`).
-/
namespace Risclet

open Text

/-- A tree as the parser makes them, at positions with the property `P`. -/
inductive Node.Placed (P : Pos → Prop) : Node → Prop where
  | int {value : Int} {pos : Pos} : P pos → Placed P (.int value pos)
  | str {value : String} {pos : Pos} : P pos → Placed P (.str value pos)
  | ident {name : String} {pos : Pos} : P pos → Placed P (.ident name pos)
  | binary {op : Arith} {left right : Node} {pos : Pos} :
      Placed P left → Placed P right → P pos → Placed P (.binary (.arith op) left right pos)
  | declaration {name typeName : String} {pos : Pos} :
      P pos → Placed P (.decl name typeName .absent pos)
  | initialisation {name typeName : String} {value : Node} {pos : Pos} :
      Placed P value → P pos → Placed P (.decl name typeName value pos)
  | assign {name : String} {value : Node} {pos : Pos} :
      Placed P value → P pos → Placed P (.assign name value pos)
  | call {name : String} {args : List Node} {pos : Pos} :
      (∀ arg ∈ args, Placed P arg) → P pos → Placed P (.call name args pos)
  | expr {value : Node} {pos : Pos} : Placed P value → P pos → Placed P (.expr value pos)

theorem Node.Placed.pos {P : Pos → Prop} {node : Node} (h : node.Placed P) : P node.pos := by
  cases h <;> assumption

theorem Node.mem_operatorsAll {op : Operator} {nodes : List Node} :
    op ∈ operatorsAll nodes ↔ ∃ node ∈ nodes, op ∈ node.operators := by
  induction nodes with
  | nil => simp [operatorsAll]
  | cons node nodes ih => simp [operatorsAll, ih]

theorem Node.Placed.not_foreign {P : Pos → Prop} {node : Node} (h : node.Placed P)
    (text : String) : .foreign text ∉ node.operators := by
  induction h with
  | binary _ _ _ ihl ihr => simp [operators, ihl, ihr]
  | call _ _ ih =>
    rw [operators, mem_operatorsAll]
    rintro ⟨arg, harg, hop⟩
    exact ih arg harg hop
  | initialisation _ _ ih | assign _ _ ih | expr _ _ ih => simpa [operators] using ih
  | _ => simp [operators]

/-! ## Outcomes -/

/-- What may become of parsing tokens of the list `tokens`: a result with the property `good`, a
rejection at a position with the property `P`, or a numeral that is too long. -/
inductive Traced {α : Type} (tokens : List Token) (P : Pos → Prop) (good : α → Prop) :
    Except Failure α → Prop where
  | ok {a : α} : good a → Traced tokens P good (.ok a)
  | rejected {e : Error} : e.fault.kind = .grammar → P e.pos →
      Traced tokens P good (.error (.rejected e))
  | tooLong {t : Token} : t ∈ tokens → t.kind = .intLiteral →
      Numeral.maxDigits < t.lexeme.length →
      Traced tokens P good (.error (.defect (.numeralTooLong t.lexeme.length)))

section Traced
variable {α β : Type} {tokens : List Token} {P : Pos → Prop} {good : α → Prop} {fine : β → Prop}
  {x : Except Failure α}

theorem Traced.fault {fault : Fault} {pos : Pos} (hf : fault.kind = .grammar) (hp : P pos) :
    Traced tokens P good (.error (.fault fault pos)) :=
  .rejected hf hp

theorem Traced.bind {f : α → Except Failure β} (h : Traced tokens P good x)
    (hf : ∀ a, good a → Traced tokens P fine (f a)) : Traced tokens P fine (x >>= f) := by
  cases h with
  | ok ha => exact hf _ ha
  | rejected hk hp => exact .rejected hk hp
  | tooLong ht hk hl => exact .tooLong ht hk hl

theorem Traced.map {f : α → β} (h : Traced tokens P good x) (hf : ∀ a, good a → fine (f a)) :
    Traced tokens P fine (x.map f) := by
  cases h with
  | ok ha => exact .ok (hf _ ha)
  | rejected hk hp => exact .rejected hk hp
  | tooLong ht hk hl => exact .tooLong ht hk hl

end Traced

namespace Node

theorem concat_subset {tokens current : List Token} {t : Token} (h : current ⊆ tokens)
    (ht : t ∈ tokens) : current ++ [t] ⊆ tokens :=
  List.append_subset.mpr ⟨h, List.cons_subset.mpr ⟨ht, List.nil_subset _⟩⟩

section Parsing
variable {tokens : List Token} {P : Pos → Prop} (hsited : ∀ t ∈ tokens, t.Sited P)
include hsited

/-! ## Expressions -/

/-- A numeral of the list, with or without a sign before it, is read unless it is too long. -/
theorem intValue_traced {t : Token} {written : String} {pos : Pos} {sign : Nat → Int}
    (ht : t ∈ tokens) (hk : t.kind = .intLiteral)
    (hread : Numeral.read written = Except.map sign (Numeral.readUnsigned t.lexeme.toList))
    (hpos : P pos) : Traced tokens P (fun _ => True) (intValue written pos) := by
  obtain ⟨hne, hdigits⟩ := (hsited t ht).digits hk
  rw [intValue, hread]
  by_cases hlong : t.lexeme.length ≤ Numeral.maxDigits
  · rw [Numeral.readUnsigned_of_digits hdigits hne (by rwa [String.length_toList]),
      Outcome.map_ok]
    dsimp only
    split
    · exact .ok trivial
    · exact .fault rfl hpos
  · rw [Numeral.readUnsigned_of_long hdigits hne (by rw [String.length_toList]; omega),
      String.length_toList, Outcome.map_error]
    exact .tooLong ht hk (by omega)

theorem parseAtom_traced {first : Token} {rest : List Token} (h : first :: rest ⊆ tokens) :
    Traced tokens P (fun p => p.1.Placed P ∧ p.2 ⊆ tokens) (parseAtom first rest) := by
  obtain ⟨hfirst, hrest⟩ := List.cons_subset.mp h
  have hsite := hsited first hfirst
  obtain ⟨kind, lexeme, pos⟩ := first
  cases kind with
  | identifier => exact .ok ⟨.ident hsite.start, hrest⟩
  | stringLiteral => exact .ok ⟨.str hsite.start, hrest⟩
  | intLiteral =>
    obtain ⟨hne, hdigits⟩ := hsite.digits rfl
    refine (intValue_traced hsited hfirst rfl (Numeral.read_of_digits hne hdigits) hsite.start).map
      ?_
    intro v _
    exact ⟨.int hsite.start, hrest⟩
  | minus =>
    cases rest with
    | nil => exact .fault rfl hsite.start
    | cons next rest =>
      obtain ⟨hnext, htail⟩ := List.cons_subset.mp hrest
      obtain ⟨kind, digits, place⟩ := next
      cases kind with
      | intLiteral =>
        refine (intValue_traced hsited hnext rfl (Numeral.read_minus digits) hsite.start).map ?_
        intro v _
        exact ⟨.int hsite.start, htail⟩
      | _ => exact .fault rfl hsite.start
  | _ => exact .fault rfl hsite.start

theorem parseExpr_traced {first : Token} {rest : List Token} (h : first :: rest ⊆ tokens) :
    Traced tokens P (Placed P) (parseExpr first rest) := by
  unfold parseExpr
  refine (parseAtom_traced hsited h).bind ?_
  rintro ⟨left, tail⟩ ⟨hleft, htail⟩
  cases tail with
  | nil => exact .ok hleft
  | cons sign tail =>
    obtain ⟨hsign, htail⟩ := List.cons_subset.mp htail
    simp only
    split
    · exact .fault rfl (hsited sign hsign).start
    · exact .fault rfl (hsited sign hsign).start
    · refine (parseAtom_traced hsited htail).bind ?_
      rintro ⟨right, extra⟩ ⟨hright, hextra⟩
      cases extra with
      | nil => exact .ok (.binary hleft hright (hsited first (h List.mem_cons_self)).start)
      | cons t extra => exact .fault rfl (hsited t (hextra List.mem_cons_self)).start

/-! ## Statements -/

theorem parseArgs_traced {current rest : List Token} (hcurrent : current ⊆ tokens)
    (hrest : rest ⊆ tokens) :
    Traced tokens P (fun args => ∀ arg ∈ args, arg.Placed P) (parseArgs current rest) := by
  fun_induction parseArgs current rest with
  | case1 => exact .ok (by simp)
  | case2 first rest =>
    refine (parseExpr_traced hsited hcurrent).map ?_
    intro arg harg
    exact List.forall_mem_singleton.mpr harg
  | case3 token rest hcomma =>
    exact .fault rfl (hsited token (hrest List.mem_cons_self)).start
  | case4 token rest hcomma first args ih =>
    refine (parseExpr_traced hsited hcurrent).bind ?_
    intro arg harg
    split
    · exact .fault rfl (hsited token (hrest List.mem_cons_self)).start
    · refine (ih (List.nil_subset _) (List.subset_of_cons_subset hrest)).bind ?_
      intro args hargs
      exact .ok (List.forall_mem_cons.mpr ⟨harg, hargs⟩)
  | case5 current token rest hcomma ih =>
    obtain ⟨htoken, htail⟩ := List.cons_subset.mp hrest
    exact ih (concat_subset hcurrent htoken) htail

theorem parseExprStatement_traced {first : Token} {rest : List Token} (h : first :: rest ⊆ tokens) :
    Traced tokens P (Placed P) (parseExprStatement first rest) := by
  have hstart := (hsited first (h List.mem_cons_self)).start
  have hexpr := parseExpr_traced hsited h
  unfold parseExprStatement
  generalize parseExpr first rest = parsed at hexpr
  cases hexpr with
  | ok hvalue => exact .ok (.expr hvalue hstart)
  | rejected _ _ => exact .fault rfl hstart
  | tooLong ht hk hl => exact .tooLong ht hk hl

theorem parseDeclaration_traced {name typeName : String} {pos : Pos} {rest : List Token}
    (hpos : P pos) (h : rest ⊆ tokens) :
    Traced tokens P (Placed P) (parseDeclaration name typeName pos rest) := by
  fun_cases parseDeclaration name typeName pos rest with
  | case1 => exact .ok (.declaration hpos)
  | case2 equals value _ => exact .fault rfl (hsited equals (h List.mem_cons_self)).start
  | case3 equals _ => exact .fault rfl (hsited equals (h List.mem_cons_self)).start
  | case4 equals _ first rest =>
    refine (parseExpr_traced hsited (List.subset_of_cons_subset h)).map ?_
    intro value hvalue
    exact .initialisation hvalue hpos

theorem parseAssignment_traced {name : String} {pos equals : Pos} {rest : List Token}
    (hpos : P pos) (hequals : P equals) (h : rest ⊆ tokens) :
    Traced tokens P (Placed P) (parseAssignment name pos equals rest) := by
  cases rest with
  | nil => exact .fault rfl hequals
  | cons first rest =>
    refine (parseExpr_traced hsited h).map ?_
    intro value hvalue
    exact .assign hvalue hpos

theorem parseStatement_traced {first : Token} {rest : List Token} (h : first :: rest ⊆ tokens) :
    Traced tokens P (Placed P) (parseStatement first rest) := by
  obtain ⟨hfirst, hrest⟩ := List.cons_subset.mp h
  have hstart := (hsited first hfirst).start
  unfold parseStatement
  split
  · refine parseDeclaration_traced hsited hstart ?_
    exact List.subset_of_cons_subset (List.subset_of_cons_subset hrest)
  · obtain ⟨hequals, hvalue⟩ := List.cons_subset.mp hrest
    exact parseAssignment_traced hsited hstart (hsited _ hequals).start hvalue
  · split
    · have hinside := List.Subset.trans (List.dropLast_subset _) (List.subset_of_cons_subset hrest)
      refine (parseArgs_traced hsited (List.nil_subset _) hinside).map ?_
      intro args hargs
      exact .call hargs hstart
    · exact parseExprStatement_traced hsited h
  · exact parseExprStatement_traced hsited h

/-! ## Programs -/

theorem parseEnd_traced {current : List Token} (h : current ⊆ tokens) :
    Traced tokens P (fun nodes => ∀ node ∈ nodes, node.Placed P) (parseEnd current) := by
  unfold parseEnd
  split
  · exact .ok (by simp)
  · next last hlast => exact .fault rfl (hsited last (h (List.mem_of_getLast? hlast))).stop

theorem parseFrom_traced {current rest : List Token} (hcurrent : current ⊆ tokens)
    (hrest : rest ⊆ tokens) :
    Traced tokens P (fun nodes => ∀ node ∈ nodes, node.Placed P) (parseFrom current rest) := by
  fun_induction parseFrom current rest with
  | case1 current => exact parseEnd_traced hsited hcurrent
  | case2 current token rest _ => exact parseEnd_traced hsited hcurrent
  | case3 token rest _ => exact .fault rfl (hsited token (hrest List.mem_cons_self)).start
  | case4 token rest _ first others ih =>
    refine (parseStatement_traced hsited hcurrent).bind ?_
    intro node hnode
    refine (ih (List.nil_subset _) (List.subset_of_cons_subset hrest)).bind ?_
    intro nodes hnodes
    exact .ok (List.forall_mem_cons.mpr ⟨hnode, hnodes⟩)
  | case5 current token rest _ _ ih =>
    obtain ⟨htoken, htail⟩ := List.cons_subset.mp hrest
    exact ih (concat_subset hcurrent htoken) htail

/-- **What becomes of tokens.**  They make statements at their positions, or they are rejected at
one of their positions, or there is a numeral among them that is too long. -/
theorem parse_traced :
    Traced tokens P (fun nodes => ∀ node ∈ nodes, node.Placed P) (parse tokens) :=
  parseFrom_traced hsited (List.nil_subset _) (List.Subset.refl _)

end Parsing
end Node
end Risclet
