import Mathlib.Data.List.TakeWhile
import Risclet.DataType
import Risclet.Node
import Risclet.Text.Digit
import Risclet.Token

/-! # The grammar

The language as a grammar, with its derivations as data:

* a program is a list of statements, each with a semicolon after it;
* a statement is `name : type`, `name : type = expression`, `name = expression`,
  `name ( [expression {, expression}] )` or an expression;
* an expression is an atom, or two atoms with an operator between them;
* an atom is a name, a string, or a 32-bit integer with or without a minus sign.

The leaves of a derivation are tokens of the kinds that the grammar asks for.  A derivation has a
`yield`, the tokens that it derives, and a `tree`, the statements that it stands for.  Main
statement: tokens have at most one derivation (`Derivation.yield_injective`).  The reason is that
atoms can be told apart by their first tokens, and that the tokens which separate arguments and
statements do not occur inside them.
-/
namespace Risclet

/-- The kind of the token for an operation. -/
def Arith.token : Arith → TokenKind
  | add => .plus
  | subtract => .minus
  | multiply => .multiply
  | divide => .divide

@[simp] theorem Arith.arith?_token (op : Arith) : op.token.arith? = some op := by
  cases op <;> rfl

namespace Grammar

/-! ## Derivations -/

/-- A token of a given kind. -/
structure Leaf (kind : TokenKind) where
  lexeme : String
  pos : Pos

/-- The token that a leaf is. -/
def Leaf.token {kind : TokenKind} (leaf : Leaf kind) : Token :=
  ⟨kind, leaf.lexeme, leaf.pos⟩

/-- The value of a numeral without sign. -/
def Leaf.value (digits : Leaf .intLiteral) : Int :=
  Text.decimalValue digits.lexeme.toList

/-- A value that is written without an operator. -/
inductive Atom where
  | name (word : Leaf .identifier)
  | string (text : Leaf .stringLiteral)
  | int (digits : Leaf .intLiteral) (range : IsInt32 digits.value)
  | negative (sign : Leaf .minus) (digits : Leaf .intLiteral) (range : IsInt32 (-digits.value))

/-- An atom, or an operation on two atoms. -/
inductive Expr where
  | atom (value : Atom)
  | operation (left : Atom) (op : Arith) (sign : Leaf op.token) (right : Atom)

/-- Arguments with commas between them; there is at least one. -/
inductive Args where
  | last (arg : Expr)
  | more (arg : Expr) (comma : Leaf .comma) (args : Args)

/-- A statement without its semicolon. -/
inductive Statement where
  | declaration (name : Leaf .identifier) (colon : Leaf .colon) (type : Leaf .identifier)
  | initialisation (name : Leaf .identifier) (colon : Leaf .colon) (type : Leaf .identifier)
    (equals : Leaf .assign) (value : Expr)
  | assignment (name : Leaf .identifier) (equals : Leaf .assign) (value : Expr)
  | call (name : Leaf .identifier) (left : Leaf .leftParen) (args : Option Args)
    (right : Leaf .rightParen)
  | expression (value : Expr)

/-- A program: statements, each with its semicolon. -/
abbrev Derivation := List (Statement × Leaf .semicolon)

/-! ## Tokens and trees

A part of a program begins with its token `first`, and `others` are the tokens after it. -/

namespace Atom

/-- The first token of an atom. -/
def first : Atom → Token
  | name word => word.token
  | string text => text.token
  | int digits _ => digits.token
  | negative sign _ _ => sign.token

/-- The other tokens of an atom. -/
def others : Atom → List Token
  | negative _ digits _ => [digits.token]
  | _ => []

/-- The tokens of an atom. -/
def yield (a : Atom) : List Token :=
  a.first :: a.others

/-- The tree of an atom. -/
def tree (a : Atom) : Node :=
  match a with
  | name word => .ident word.lexeme a.first.pos
  | string text => .str text.lexeme a.first.pos
  | int digits _ => .int digits.value a.first.pos
  | negative _ digits _ => .int (-digits.value) a.first.pos

end Atom

namespace Expr

/-- The first token of an expression. -/
def first : Expr → Token
  | atom a => a.first
  | operation left _ _ _ => left.first

/-- The other tokens of an expression. -/
def others : Expr → List Token
  | atom a => a.others
  | operation left _ sign right => left.others ++ sign.token :: right.yield

/-- The tokens of an expression. -/
def yield (e : Expr) : List Token :=
  e.first :: e.others

/-- The tree of an expression. -/
def tree (e : Expr) : Node :=
  match e with
  | atom a => a.tree
  | operation left op _ right => .binary (.arith op) left.tree right.tree e.first.pos

end Expr

namespace Args

/-- The tokens of arguments. -/
def yield : Args → List Token
  | last arg => arg.yield
  | more arg comma args => arg.yield ++ comma.token :: args.yield

/-- The trees of arguments. -/
def tree : Args → List Node
  | last arg => [arg.tree]
  | more arg _ args => arg.tree :: args.tree

end Args

/-- The tokens between the parentheses of a call. -/
def argsYield (args : Option Args) : List Token :=
  args.elim [] Args.yield

/-- The trees of the arguments of a call. -/
def argsTree (args : Option Args) : List Node :=
  args.elim [] Args.tree

namespace Statement

/-- The first token of a statement. -/
def first : Statement → Token
  | declaration name _ _ | initialisation name _ _ _ _ | assignment name _ _ | call name _ _ _ =>
    name.token
  | expression value => value.first

/-- The other tokens of a statement. -/
def others : Statement → List Token
  | declaration _ colon type => [colon.token, type.token]
  | initialisation _ colon type equals value =>
    colon.token :: type.token :: equals.token :: value.yield
  | assignment _ equals value => equals.token :: value.yield
  | call _ left args right => left.token :: (argsYield args ++ [right.token])
  | expression value => value.others

/-- The tokens of a statement. -/
def yield (s : Statement) : List Token :=
  s.first :: s.others

/-- The tree of a statement. -/
def tree (s : Statement) : Node :=
  match s with
  | declaration name _ type => .decl name.lexeme type.lexeme .absent s.first.pos
  | initialisation name _ type _ value => .decl name.lexeme type.lexeme value.tree s.first.pos
  | assignment name _ value => .assign name.lexeme value.tree s.first.pos
  | call name _ args _ => .call name.lexeme (argsTree args) s.first.pos
  | expression value => .expr value.tree s.first.pos

end Statement

namespace Derivation

/-- The tokens of a program. -/
def yield (d : Derivation) : List Token :=
  d.flatMap fun part => part.1.yield ++ [part.2.token]

/-- The statements of a program. -/
def tree (d : Derivation) : List Node :=
  d.map fun part => part.1.tree

end Derivation

/-! ## Kinds of tokens -/

section Kinds
variable {kind : TokenKind} {t : Token}

@[simp] theorem Leaf.kind_token (leaf : Leaf kind) : leaf.token.kind = kind := rfl

@[simp] theorem Leaf.token_inj {leaf other : Leaf kind} :
    leaf.token = other.token ↔ leaf = other := by
  obtain ⟨lexeme, pos⟩ := leaf
  obtain ⟨lexeme', pos'⟩ := other
  simp [Leaf.token]

@[simp] theorem Leaf.token_ne {kind' : TokenKind} (leaf : Leaf kind) (other : Leaf kind')
    (h : kind ≠ kind') : leaf.token ≠ other.token :=
  fun he => h (congrArg Token.kind he)

@[simp] theorem Expr.yield_atom (a : Atom) : (Expr.atom a).yield = a.yield := rfl

@[simp] theorem Expr.yield_operation (left right : Atom) (op : Arith) (sign : Leaf op.token) :
    (Expr.operation left op sign right).yield = left.yield ++ sign.token :: right.yield := rfl

/-- The kinds of tokens that separate arguments, statements and texts. -/
def separators : List TokenKind :=
  [.comma, .semicolon, .endOfText]

/-- The kinds of tokens that end statements. -/
def terminators : List TokenKind :=
  [.semicolon, .endOfText]

theorem operator_not_mem_separators (op : Arith) : op.token ∉ separators := by
  cases op <;> decide

theorem Atom.kind_of_mem {a : Atom} (h : t ∈ a.yield) : t.kind ∉ separators := by
  cases a with
  | negative sign digits range =>
    simp only [yield, first, others, List.mem_cons, List.not_mem_nil, or_false] at h
    rcases h with rfl | rfl <;> simp [separators]
  | _ =>
    simp only [yield, first, others, List.mem_singleton] at h
    subst h
    simp [separators]

theorem Expr.kind_of_mem {e : Expr} (h : t ∈ e.yield) : t.kind ∉ separators := by
  cases e with
  | atom a => exact a.kind_of_mem h
  | operation left op sign right =>
    rw [yield_operation, List.mem_append, List.mem_cons] at h
    rcases h with h | rfl | h
    · exact left.kind_of_mem h
    · exact operator_not_mem_separators op
    · exact right.kind_of_mem h

theorem Expr.kind_ne_comma {e : Expr} : ∀ t ∈ e.yield, t.kind ≠ .comma := by
  intro t ht hk
  exact e.kind_of_mem ht (by simp [hk, separators])

theorem Expr.kind_not_mem_terminators {e : Expr} : ∀ t ∈ e.yield, t.kind ∉ terminators := by
  intro t ht hk
  exact e.kind_of_mem ht (List.mem_cons_of_mem _ hk)

theorem Args.kind_not_mem_terminators {args : Args} :
    ∀ t ∈ args.yield, t.kind ∉ terminators := by
  intro t h
  induction args with
  | last arg => exact arg.kind_not_mem_terminators t h
  | more arg comma args ih =>
    rw [yield, List.mem_append, List.mem_cons] at h
    rcases h with h | rfl | h
    · exact arg.kind_not_mem_terminators t h
    · simp [terminators]
    · exact ih h

/-- No token that ends a statement is inside one. -/
theorem Statement.kind_not_mem_terminators {s : Statement} :
    ∀ t ∈ s.yield, t.kind ∉ terminators := by
  intro t h
  cases s with
  | declaration name colon type =>
    simp only [yield, first, others, List.mem_cons, List.not_mem_nil, or_false] at h
    rcases h with rfl | rfl | rfl <;> simp [terminators]
  | initialisation name colon type equals value =>
    simp only [yield, first, others, List.mem_cons] at h
    rcases h with rfl | rfl | rfl | rfl | h
    iterate 4 simp [terminators]
    exact value.kind_not_mem_terminators t h
  | assignment name equals value =>
    simp only [yield, first, others, List.mem_cons] at h
    rcases h with rfl | rfl | h
    iterate 2 simp [terminators]
    exact value.kind_not_mem_terminators t h
  | call name left args right =>
    simp only [yield, first, others, List.mem_cons, List.mem_append, List.not_mem_nil,
      or_false] at h
    rcases h with rfl | rfl | h | rfl
    iterate 2 simp [terminators]
    · cases args with
      | none => cases h
      | some args => exact args.kind_not_mem_terminators t h
    · simp [terminators]
  | expression value => exact value.kind_not_mem_terminators t h

/-- No semicolon is inside a statement. -/
theorem Statement.kind_ne_semicolon {s : Statement} : ∀ t ∈ s.yield, t.kind ≠ .semicolon := by
  intro t ht hk
  exact s.kind_not_mem_terminators t ht (by simp [hk, terminators])

end Kinds

/-! ## Uniqueness -/

section Uniqueness

/-- Where tokens are cut at the first one of a kind, they are cut in one way. -/
theorem append_separator_inj {kind : TokenKind} {a b r s : List Token} {c d : Token}
    (ha : ∀ t ∈ a, t.kind ≠ kind) (hb : ∀ t ∈ b, t.kind ≠ kind) (hc : c.kind = kind)
    (hd : d.kind = kind) (h : a ++ c :: r = b ++ d :: s) : a = b ∧ c = d ∧ r = s := by
  have hcut : ∀ {l : List Token} {x : Token} {m : List Token}, (∀ t ∈ l, t.kind ≠ kind) →
      x.kind = kind → (l ++ x :: m).takeWhile (fun t => t.kind != kind) = l := by
    intro l x m hl hx
    rw [List.takeWhile_append_of_pos (by simpa using hl), List.takeWhile_cons_of_neg (by simp [hx]),
      List.append_nil]
  obtain rfl : a = b := by rw [← hcut ha hc, h, hcut hb hd]
  simpa using h

/-- **No atom begins another.** -/
theorem Atom.append_inj {a b : Atom} {r s : List Token} (h : a.yield ++ r = b.yield ++ s) :
    a = b ∧ r = s := by
  cases a <;> cases b <;> simp_all [yield, first, others]

/-- Only a numeral can follow a sign. -/
theorem Atom.eq_negative {a : Atom} {sign : Leaf .minus} {rest left : List Token}
    (h : a.yield ++ left = sign.token :: rest) :
    ∃ digits range, a = .negative sign digits range ∧ rest = digits.token :: left := by
  obtain ⟨hf, ho⟩ := List.cons.inj h
  cases a with
  | negative sign' digits range =>
    obtain rfl := Leaf.token_inj.mp hf
    exact ⟨digits, range, rfl, ho.symm⟩
  | _ => cases hf

/-- An expression that goes on after its first atom is an operation. -/
theorem Expr.eq_operation {e : Expr} {left : Atom} {sign : Token} {tail : List Token}
    (h : e.yield = left.yield ++ sign :: tail) :
    ∃ op leaf right, e = .operation left op leaf right ∧ sign = leaf.token ∧
      tail = right.yield := by
  cases e with
  | atom a =>
    obtain ⟨-, ht⟩ := Atom.append_inj ((List.append_nil a.yield).trans h)
    cases ht
  | operation left' op leaf right =>
    obtain ⟨rfl, ht⟩ := Atom.append_inj h
    obtain ⟨rfl, rfl⟩ := List.cons.inj ht
    exact ⟨op, leaf, right, rfl, rfl, rfl⟩

theorem Expr.yield_injective {e f : Expr} (h : e.yield = f.yield) : e = f := by
  cases e with
  | atom a =>
    cases f with
    | atom b =>
      obtain ⟨rfl, -⟩ := Atom.append_inj (congrArg (· ++ []) h)
      rfl
    | operation left op sign right =>
      obtain ⟨_, _, _, he, -⟩ := Expr.eq_operation h
      cases he
  | operation left op sign right =>
    obtain ⟨op', sign', right', rfl, hsign, hright⟩ := Expr.eq_operation h.symm
    -- Equal signs are signs of one operation, since their kinds are equal.
    obtain rfl : op = op' := by
      have hkind := congrArg (fun t : Token => t.kind.arith?) hsign
      simpa using hkind
    obtain rfl := Leaf.token_inj.mp hsign
    obtain ⟨rfl, -⟩ := Atom.append_inj (congrArg (· ++ []) hright)
    rfl

theorem Args.yield_ne_nil (args : Args) : args.yield ≠ [] := by
  cases args with
  | last arg => exact List.cons_ne_nil _ _
  | more arg comma args => exact List.append_ne_nil_of_right_ne_nil _ (List.cons_ne_nil _ _)

section Arguments
variable {args : Args} {current : List Token} (hcurrent : ∀ t ∈ current, t.kind ≠ .comma)
include hcurrent

/-- Tokens without comma are one argument. -/
theorem Args.eq_last (h : args.yield = current) :
    ∃ arg, args = .last arg ∧ current = arg.yield := by
  cases args with
  | last arg => exact ⟨arg, rfl, h.symm⟩
  | more arg comma args =>
    have hmem : comma.token ∈ current := h ▸ List.mem_append_right _ List.mem_cons_self
    exact absurd rfl (hcurrent _ hmem)

/-- The tokens up to the first comma are one argument, and those after it the others. -/
theorem Args.eq_more {comma : Leaf .comma} {tail : List Token}
    (h : args.yield = current ++ comma.token :: tail) :
    ∃ arg rest, args = .more arg comma rest ∧ current = arg.yield ∧ tail = rest.yield := by
  cases args with
  | last arg =>
    have hmem : comma.token ∈ (last arg).yield := h ▸ List.mem_append_right _ List.mem_cons_self
    exact absurd rfl (arg.kind_ne_comma _ hmem)
  | more arg comma' args =>
    obtain ⟨harg, hc, hargs⟩ :=
      append_separator_inj arg.kind_ne_comma hcurrent rfl rfl h
    obtain rfl := Leaf.token_inj.mp hc
    exact ⟨arg, args, rfl, harg.symm, hargs.symm⟩

end Arguments

theorem Args.yield_injective {args other : Args} (h : args.yield = other.yield) :
    args = other := by
  induction args generalizing other with
  | last arg =>
    obtain ⟨arg', rfl, harg⟩ := eq_last arg.kind_ne_comma h.symm
    rw [Expr.yield_injective harg]
  | more arg comma args ih =>
    obtain ⟨arg', args', rfl, harg, hargs⟩ := eq_more arg.kind_ne_comma h.symm
    rw [Expr.yield_injective harg, ih hargs]

theorem argsYield_injective {args other : Option Args}
    (h : argsYield args = argsYield other) : args = other := by
  cases args with
  | none =>
    cases other with
    | none => rfl
    | some other => exact absurd h.symm other.yield_ne_nil
  | some args =>
    cases other with
    | none => exact absurd h args.yield_ne_nil
    | some other => rw [Args.yield_injective h]

/-- A name is an atom on its own. -/
theorem Atom.others_of_identifier {a : Atom} (h : a.first.kind = .identifier) : a.others = [] := by
  cases a with
  | negative sign digits range => cases h
  | _ => rfl

/-- An expression that begins with a name and goes on has an operator next. -/
theorem Expr.arith?_of_others {e : Expr} {t : Token} {rest : List Token}
    (hf : e.first.kind = .identifier) (h : e.others = t :: rest) : t.kind.arith? ≠ none := by
  cases e with
  | atom a =>
    rw [others, a.others_of_identifier hf] at h
    cases h
  | operation left op sign right =>
    rw [others, left.others_of_identifier hf] at h
    cases h
    simp

/-! ### Statements by their first tokens

A statement that is no expression is told from its second token. -/

section Forms
variable {s : Statement} {name : Leaf .identifier} {tail : List Token}

theorem Statement.eq_declaration {colon : Leaf .colon} {type : Leaf .identifier}
    (h : s.yield = name.token :: colon.token :: type.token :: tail) :
    (s = .declaration name colon type ∧ tail = []) ∨ ∃ equals value,
      s = .initialisation name colon type equals value ∧ tail = equals.token :: value.yield := by
  obtain ⟨hf, ho⟩ := List.cons.inj h
  cases s with
  | expression value => exact absurd rfl (value.arith?_of_others (congrArg Token.kind hf) ho)
  | declaration name' colon' type' => exact .inl (by simp_all [first, others])
  | initialisation name' colon' type' equals value =>
    refine .inr ⟨equals, value, ?_⟩
    simp_all [first, others]
  | _ => simp [others] at ho

theorem Statement.eq_assignment {equals : Leaf .assign}
    (h : s.yield = name.token :: equals.token :: tail) :
    ∃ value, s = .assignment name equals value ∧ tail = value.yield := by
  obtain ⟨hf, ho⟩ := List.cons.inj h
  cases s with
  | expression value => exact absurd rfl (value.arith?_of_others (congrArg Token.kind hf) ho)
  | assignment name' equals' value =>
    refine ⟨value, ?_⟩
    simp_all [first, others]
  | _ => simp [others] at ho

theorem Statement.eq_call {left : Leaf .leftParen}
    (h : s.yield = name.token :: left.token :: tail) :
    ∃ args right, s = .call name left args right ∧
      tail = argsYield args ++ [right.token] := by
  obtain ⟨hf, ho⟩ := List.cons.inj h
  cases s with
  | expression value => exact absurd rfl (value.arith?_of_others (congrArg Token.kind hf) ho)
  | call name' left' args right =>
    refine ⟨args, right, ?_⟩
    simp_all [first, others]
  | _ => simp [others] at ho

end Forms

/-- Statements of different forms have different tokens, and so have different statements of one
form. -/
theorem Statement.yield_injective {s s' : Statement} (h : s.yield = s'.yield) : s = s' := by
  cases s with
  | expression value =>
    obtain ⟨hf, ho⟩ := List.cons.inj h
    cases s' with
    | expression value' => rw [Expr.yield_injective h]
    | _ => exact absurd rfl (value.arith?_of_others (congrArg Token.kind hf) ho)
  | declaration name colon type =>
    obtain ⟨rfl, -⟩ | ⟨equals, value, rfl, ht⟩ := eq_declaration h.symm
    · rfl
    · cases ht
  | initialisation name colon type equals value =>
    obtain ⟨rfl, ht⟩ | ⟨equals', value', rfl, ht⟩ := eq_declaration h.symm
    · cases ht
    · obtain ⟨he, hv⟩ := List.cons.inj ht
      rw [Leaf.token_inj.mp he, Expr.yield_injective hv]
  | assignment name equals value =>
    obtain ⟨value', rfl, hv⟩ := eq_assignment h.symm
    rw [Expr.yield_injective hv]
  | call name left args right =>
    obtain ⟨args', right', rfl, ht⟩ := eq_call h.symm
    obtain ⟨ha, hr⟩ := List.append_inj' ht rfl
    rw [argsYield_injective ha, Leaf.token_inj.mp (List.cons.inj hr).1]

@[simp] theorem Derivation.yield_cons (s : Statement) (semicolon : Leaf .semicolon)
    (d : Derivation) : yield ((s, semicolon) :: d) = s.yield ++ semicolon.token :: yield d := by
  simp [yield]

/-- The tokens up to the first semicolon are one statement, and those after it the others. -/
theorem Derivation.eq_cons {d : Derivation} {current tail : List Token}
    {semicolon : Leaf .semicolon} (hcurrent : ∀ t ∈ current, t.kind ≠ .semicolon)
    (h : d.yield = current ++ semicolon.token :: tail) :
    ∃ s rest, d = (s, semicolon) :: rest ∧ current = s.yield ∧ tail = Derivation.yield rest := by
  cases d with
  | nil => simp [yield] at h
  | cons part rest =>
    obtain ⟨s, semicolon'⟩ := part
    rw [yield_cons] at h
    obtain ⟨hs, hc, hrest⟩ := append_separator_inj s.kind_ne_semicolon hcurrent rfl rfl h
    obtain rfl := Leaf.token_inj.mp hc
    exact ⟨s, rest, rfl, hs.symm, hrest.symm⟩

/-- **Tokens have at most one derivation.** -/
theorem Derivation.yield_injective {d d' : Derivation} (h : d.yield = d'.yield) : d = d' := by
  induction d generalizing d' with
  | nil =>
    cases d' with
    | nil => rfl
    | cons part d' => simp [yield] at h
  | cons part d ih =>
    obtain ⟨s, semicolon⟩ := part
    rw [yield_cons] at h
    obtain ⟨s', d', rfl, hs, hd⟩ := eq_cons s.kind_ne_semicolon h.symm
    rw [Statement.yield_injective hs, ih hd]

end Uniqueness

end Grammar
end Risclet
