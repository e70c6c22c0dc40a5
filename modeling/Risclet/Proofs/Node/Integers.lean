import Risclet.Proofs.Node.Compose

/-! # Integer literals

What the parser makes of an integer literal: the digits may be of any script, there may be any
number of them, and they may stand in the place of any atom of a statement that is in order
otherwise.

Such a place is a statement with a hole (`StatementHole`), and a hole is in an expression that may
be among arguments (`ExprHole`, `ArgsHole`).  The parser gives the statement around the literal, or
fails with what is wrong with the literal alone (`Literal.failure?`).  This is shown outwards, from
the atom over the expression, the arguments and the statement to the program (`parse_fill`).

A literal is judged by its value if it is not too long (`parse_literal`).  A longer one is not
judged at all, also where its value is zero (`parse_leading_zeros`).
-/
namespace Risclet
namespace Grammar

/-! ## Literals -/

/-- A token that is a run of decimal digits. -/
structure Digits extends Leaf .intLiteral where
  nonempty : lexeme.toList ≠ []
  digits : ∀ c ∈ lexeme.toList, Text.isDigit c = true

/-- An integer literal of any value: digits, or a minus sign with digits. -/
inductive Literal where
  | plain (digits : Digits)
  | negative (sign : Leaf .minus) (digits : Digits)

namespace Literal

/-- The digits of a literal. -/
def digits : Literal → Digits
  | plain digits | negative _ digits => digits

/-- The first token of a literal. -/
def first : Literal → Token
  | plain digits => digits.token
  | negative sign _ => sign.token

/-- The other tokens of a literal. -/
def others : Literal → List Token
  | plain _ => []
  | negative _ digits => [digits.token]

/-- The tokens of a literal. -/
def yield (n : Literal) : List Token :=
  n.first :: n.others

/-- A literal without blanks. -/
def written : Literal → String
  | plain digits => digits.lexeme
  | negative _ digits => "-" ++ digits.lexeme

/-- The decimal value of the digits. -/
def magnitude (n : Literal) : Nat :=
  Text.decimalValue n.digits.lexeme.toList

/-- The value of a literal. -/
def value : Literal → Int
  | plain digits => digits.value
  | negative _ digits => -digits.value

/-- The greatest magnitude of a literal that is a 32-bit integer. -/
def limit : Literal → Nat
  | plain _ => 2147483647
  | negative _ _ => 2147483648

/-- The tree of a literal. -/
def tree (n : Literal) : Node :=
  .int n.value n.first.pos

/-- What is wrong with a literal, if anything is. -/
def failure? (n : Literal) : Option Failure :=
  if Text.Numeral.maxDigits < n.digits.lexeme.length then
    some (.defect (.numeralTooLong n.digits.lexeme.length))
  else if n.limit < n.magnitude then some (.fault (.literalTooLarge n.written) n.first.pos)
  else none

/-- A result that there is if nothing is wrong with a literal. -/
def judge {α : Type} (n : Literal) (a : α) : Except Failure α :=
  match n.failure? with
  | none => .ok a
  | some failure => .error failure

section Judge
variable {α β : Type} (n : Literal)

@[simp] theorem judge_map (f : α → β) (a : α) : (n.judge a).map f = n.judge (f a) := by
  unfold judge
  cases n.failure? <;> rfl

theorem judge_bind {f : α → Except Failure β} {a : α} {b : β} (h : f a = .ok b) :
    (n.judge a >>= f) = n.judge b := by
  unfold judge
  cases n.failure? with
  | none => exact h
  | some failure => rfl

theorem judge_mapError {report : Failure → Failure} (h : ∀ f, report f = f) (a : α) :
    (n.judge a).mapError report = n.judge a := by
  unfold judge
  cases n.failure? with
  | none => rfl
  | some failure => exact congrArg Except.error (h failure)

end Judge

theorem isInt32_value_iff (n : Literal) : IsInt32 n.value ↔ n.magnitude ≤ n.limit := by
  cases n <;>
    simp only [IsInt32, int32Min, int32Max, value, Leaf.value, magnitude, limit, digits] <;> omega

/-- A run of digits is read if it is not too long, with a minus sign and without. -/
theorem read_written (n : Literal) :
    Text.Numeral.read n.written =
      if Text.Numeral.maxDigits < n.digits.lexeme.length
        then .error (.tooLong n.digits.lexeme.length) else .ok n.value := by
  have hunsigned : ∀ d : Digits, Text.Numeral.readUnsigned d.lexeme.toList =
      if Text.Numeral.maxDigits < d.lexeme.length then .error (.tooLong d.lexeme.length)
        else .ok (Text.decimalValue d.lexeme.toList) := by
    intro d
    rw [← String.length_toList]
    split
    · next hlong => exact Text.Numeral.readUnsigned_of_long d.digits d.nonempty hlong
    · next hlong =>
      exact Text.Numeral.readUnsigned_of_digits d.digits d.nonempty (Nat.le_of_not_lt hlong)
  cases n with
  | plain d =>
    rw [written, Text.Numeral.read_of_digits d.nonempty d.digits, hunsigned, digits]
    split <;> rfl
  | negative sign d =>
    rw [written, Text.Numeral.read_minus, hunsigned, digits]
    split <;> rfl

theorem intValue_written (n : Literal) :
    Node.intValue n.written n.first.pos = n.judge n.value := by
  rw [Node.intValue, read_written, judge, failure?]
  by_cases hlong : Text.Numeral.maxDigits < n.digits.lexeme.length
  · simp [hlong]
  · by_cases hv : n.limit < n.magnitude
    · simp [hlong, hv, isInt32_value_iff, Nat.not_le.mpr hv]
    · simp [hlong, hv, isInt32_value_iff, Nat.le_of_not_lt hv]

/-- A literal is judged where it stands, and what follows it is left. -/
theorem parseAtom_literal (n : Literal) (rest : List Token) :
    Node.parseAtom n.first (n.others ++ rest) = n.judge (n.tree, rest) := by
  rw [tree, ← n.judge_map (fun v => (Node.int v n.first.pos, rest)), ← intValue_written]
  cases n <;> rfl

theorem kind_of_mem {n : Literal} {t : Token} (h : t ∈ n.yield) : t.kind ∉ separators := by
  cases n with
  | plain digits =>
    obtain rfl := List.mem_singleton.mp h
    simp [first, separators]
  | negative sign digits =>
    simp only [yield, first, others, List.mem_cons, List.not_mem_nil, or_false] at h
    rcases h with rfl | rfl <;> simp [separators]

end Literal

/-! ## Holes

A hole is filled with the tokens of a literal. -/

/-- An expression without one of its atoms. -/
inductive ExprHole where
  | whole
  | leftOf (op : Arith) (sign : Leaf op.token) (right : Atom)
  | rightOf (left : Atom) (op : Arith) (sign : Leaf op.token)

namespace ExprHole

/-- The tokens of an expression whose hole is filled with `inner`. -/
def fill (inner : List Token) : ExprHole → List Token
  | whole => inner
  | leftOf _ sign right => inner ++ sign.token :: right.yield
  | rightOf left _ sign => left.yield ++ sign.token :: inner

/-- The first token of an expression with a literal in its hole. -/
def first (n : Literal) : ExprHole → Token
  | whole | leftOf _ _ _ => n.first
  | rightOf left _ _ => left.first

/-- The other tokens of an expression with a literal in its hole. -/
def others (n : Literal) : ExprHole → List Token
  | whole => n.others
  | leftOf _ sign right => n.others ++ sign.token :: right.yield
  | rightOf left _ sign => left.others ++ sign.token :: n.yield

/-- The tree of an expression with a literal in its hole. -/
def tree (n : Literal) (hole : ExprHole) : Node :=
  match hole with
  | whole => n.tree
  | leftOf op _ right => .binary (.arith op) n.tree right.tree (hole.first n).pos
  | rightOf left op _ => .binary (.arith op) left.tree n.tree (hole.first n).pos

theorem fill_yield (hole : ExprHole) (n : Literal) :
    hole.fill n.yield = hole.first n :: hole.others n := by
  cases hole <;> rfl

/-- An expression that begins with a name and goes on has an operator next. -/
theorem arith?_of_others {hole : ExprHole} {n : Literal} {t : Token} {rest : List Token}
    (hf : (hole.first n).kind = .identifier) (h : hole.others n = t :: rest) :
    t.kind.arith? ≠ none := by
  have hliteral : n.first.kind ≠ .identifier := by
    cases n <;> simp [Literal.first]
  cases hole with
  | whole => exact absurd hf hliteral
  | leftOf op sign right => exact absurd hf hliteral
  | rightOf left op sign =>
    rw [others, left.others_of_identifier hf] at h
    cases h
    simp

theorem kind_of_mem (hole : ExprHole) (n : Literal) {t : Token}
    (h : t ∈ hole.fill n.yield) : t.kind ∉ separators := by
  cases hole with
  | whole => exact n.kind_of_mem h
  | leftOf op sign right =>
    rw [fill, List.mem_append, List.mem_cons] at h
    rcases h with h | rfl | h
    · exact n.kind_of_mem h
    · exact operator_not_mem_separators op
    · exact right.kind_of_mem h
  | rightOf left op sign =>
    rw [fill, List.mem_append, List.mem_cons] at h
    rcases h with h | rfl | h
    · exact left.kind_of_mem h
    · exact operator_not_mem_separators op
    · exact n.kind_of_mem h

theorem kind_ne_comma (hole : ExprHole) (n : Literal) :
    ∀ t ∈ hole.first n :: hole.others n, t.kind ≠ .comma := by
  intro t ht hk
  exact hole.kind_of_mem n (hole.fill_yield n ▸ ht) (by simp [hk, separators])

theorem kind_not_mem_terminators {hole : ExprHole} {n : Literal} :
    ∀ t ∈ hole.fill n.yield, t.kind ∉ terminators := by
  intro t ht hk
  exact hole.kind_of_mem n ht (List.mem_cons_of_mem _ hk)

/-- **An expression is parsed around a literal.** -/
theorem parseExpr_fill {hole : ExprHole} (n : Literal) (h : Legible (hole.fill [])) :
    Node.parseExpr (hole.first n) (hole.others n) = n.judge (hole.tree n) := by
  have hlast := n.parseAtom_literal []
  rw [List.append_nil] at hlast
  cases hole with
  | whole =>
    rw [first, others, Node.parseExpr, hlast]
    exact n.judge_bind rfl
  | leftOf op sign right =>
    have hright := parseAtom_yield h.of_cons []
    rw [List.append_nil] at hright
    rw [first, others, Node.parseExpr, n.parseAtom_literal]
    refine n.judge_bind ?_
    simp [Atom.yield, hright, tree, first]
  | rightOf left op sign =>
    rw [first, others, Node.parseExpr, parseAtom_yield h.of_append_left]
    simp only [Literal.yield, Outcome.bind_ok, Leaf.kind_token, Arith.arith?_token, hlast]
    exact n.judge_bind rfl

end ExprHole

/-- Arguments without one of their atoms. -/
inductive ArgsHole where
  | last (arg : ExprHole)
  | more (arg : ExprHole) (comma : Leaf .comma) (args : Args)
  | next (arg : Expr) (comma : Leaf .comma) (args : ArgsHole)

namespace ArgsHole

/-- The tokens of arguments whose hole is filled with `inner`. -/
def fill (inner : List Token) : ArgsHole → List Token
  | last arg => arg.fill inner
  | more arg comma args => arg.fill inner ++ comma.token :: args.yield
  | next arg comma args => arg.yield ++ comma.token :: args.fill inner

/-- The trees of arguments with a literal in their hole. -/
def tree (n : Literal) : ArgsHole → List Node
  | last arg => [arg.tree n]
  | more arg _ args => arg.tree n :: args.tree
  | next arg _ args => arg.tree :: args.tree n

theorem fill_ne_nil (hole : ArgsHole) (n : Literal) : hole.fill n.yield ≠ [] := by
  cases hole with
  | last arg => simp [fill, arg.fill_yield]
  | more arg comma args => simp [fill]
  | next arg comma args => simp [fill]

theorem kind_not_mem_terminators {hole : ArgsHole} {n : Literal} :
    ∀ t ∈ hole.fill n.yield, t.kind ∉ terminators := by
  intro t h
  induction hole with
  | last arg => exact arg.kind_not_mem_terminators t h
  | more arg comma args =>
    rw [fill, List.mem_append, List.mem_cons] at h
    rcases h with h | rfl | h
    · exact arg.kind_not_mem_terminators t h
    · simp [terminators]
    · exact args.kind_not_mem_terminators t h
  | next arg comma args ih =>
    rw [fill, List.mem_append, List.mem_cons] at h
    rcases h with h | rfl | h
    · exact arg.kind_not_mem_terminators t h
    · simp [terminators]
    · exact ih h

/-- **Arguments are parsed around a literal.** -/
theorem parseArgs_fill {hole : ArgsHole} (n : Literal) (h : Legible (hole.fill [])) :
    Node.parseArgs [] (hole.fill n.yield) = n.judge (hole.tree n) := by
  induction hole with
  | last arg =>
    rw [fill, arg.fill_yield, parseArgs_last (arg.kind_ne_comma n), ExprHole.parseExpr_fill n h,
      Literal.judge_map]
    rfl
  | more arg comma args =>
    rw [fill, arg.fill_yield, parseArgs_more (arg.kind_ne_comma n) comma args.yield_ne_nil,
      ExprHole.parseExpr_fill n h.of_append_left, parseArgs_yield h.of_append_right.of_cons]
    exact n.judge_bind rfl
  | next arg comma args ih =>
    rw [fill, Expr.yield, parseArgs_more arg.kind_ne_comma comma (args.fill_ne_nil n),
      parseExpr_yield h.of_append_left, ih h.of_append_right.of_cons]
    exact n.judge_bind rfl

end ArgsHole

/-- A statement without one of its atoms. -/
inductive StatementHole where
  | initialisation (name : Leaf .identifier) (colon : Leaf .colon) (type : Leaf .identifier)
    (equals : Leaf .assign) (value : ExprHole)
  | assignment (name : Leaf .identifier) (equals : Leaf .assign) (value : ExprHole)
  | call (name : Leaf .identifier) (left : Leaf .leftParen) (args : ArgsHole)
    (right : Leaf .rightParen)
  | expression (value : ExprHole)

namespace StatementHole

/-- The tokens of a statement whose hole is filled with `inner`. -/
def fill (inner : List Token) : StatementHole → List Token
  | initialisation name colon type equals value =>
    name.token :: colon.token :: type.token :: equals.token :: value.fill inner
  | assignment name equals value => name.token :: equals.token :: value.fill inner
  | call name left args right =>
    name.token :: left.token :: (args.fill inner ++ [right.token])
  | expression value => value.fill inner

/-- The first token of a statement with a literal in its hole. -/
def first (n : Literal) : StatementHole → Token
  | initialisation name _ _ _ _ | assignment name _ _ | call name _ _ _ => name.token
  | expression value => value.first n

/-- The other tokens of a statement with a literal in its hole. -/
def others (n : Literal) : StatementHole → List Token
  | initialisation _ colon type equals value =>
    colon.token :: type.token :: equals.token :: value.fill n.yield
  | assignment _ equals value => equals.token :: value.fill n.yield
  | call _ left args right => left.token :: (args.fill n.yield ++ [right.token])
  | expression value => value.others n

/-- The tree of a statement with a literal in its hole. -/
def tree (n : Literal) (hole : StatementHole) : Node :=
  match hole with
  | initialisation name _ type _ value =>
    .decl name.lexeme type.lexeme (value.tree n) (hole.first n).pos
  | assignment name _ value => .assign name.lexeme (value.tree n) (hole.first n).pos
  | call name _ args _ => .call name.lexeme (args.tree n) (hole.first n).pos
  | expression value => .expr (value.tree n) (hole.first n).pos

/-- What is reported of a failure in a statement: a bare expression that is rejected is a statement
without structure. -/
def report (n : Literal) : StatementHole → Failure → Failure
  | expression value, .rejected _ => .fault .unrecognisedStatement (value.first n).pos
  | _, failure => failure

@[simp] theorem report_defect (hole : StatementHole) (n : Literal) (defect : Defect) :
    hole.report n (.defect defect) = .defect defect := by
  cases hole <;> rfl

theorem fill_yield (hole : StatementHole) (n : Literal) :
    hole.fill n.yield = hole.first n :: hole.others n := by
  cases hole with
  | expression value => exact value.fill_yield n
  | _ => rfl

theorem kind_not_mem_terminators (hole : StatementHole) (n : Literal) :
    ∀ t ∈ hole.first n :: hole.others n, t.kind ∉ terminators := by
  rw [← hole.fill_yield]
  intro t h
  cases hole with
  | initialisation name colon type equals value =>
    simp only [fill, List.mem_cons] at h
    rcases h with rfl | rfl | rfl | rfl | h
    iterate 4 simp [terminators]
    exact value.kind_not_mem_terminators t h
  | assignment name equals value =>
    simp only [fill, List.mem_cons] at h
    rcases h with rfl | rfl | h
    iterate 2 simp [terminators]
    exact value.kind_not_mem_terminators t h
  | call name left args right =>
    simp only [fill, List.mem_cons, List.mem_append, List.not_mem_nil, or_false] at h
    rcases h with rfl | rfl | h | rfl
    iterate 2 simp [terminators]
    · exact args.kind_not_mem_terminators t h
    · simp [terminators]
  | expression value => exact value.kind_not_mem_terminators t h

/-- A bare expression has none of the other forms of statements: where it begins with a name, an
operator is next. -/
theorem parseStatement_expression (value : ExprHole) (n : Literal) :
    Node.parseStatement (value.first n) (value.others n) =
      Node.parseExprStatement (value.first n) (value.others n) := by
  unfold Node.parseStatement
  split
  · next hk ho => exact absurd rfl (value.arith?_of_others hk ho)
  · next hk ho => exact absurd rfl (value.arith?_of_others hk ho)
  · next hk ho => exact absurd rfl (value.arith?_of_others hk ho)
  · rfl

/-- **A statement is parsed around a literal.** -/
theorem parseStatement_fill {hole : StatementHole} (n : Literal) (h : Legible (hole.fill [])) :
    Node.parseStatement (hole.first n) (hole.others n) =
      (n.judge (hole.tree n)).mapError (hole.report n) := by
  cases hole with
  | initialisation name colon type equals value =>
    have hvalue := value.parseExpr_fill n h.of_cons.of_cons.of_cons.of_cons
    have hparse : Node.parseStatement name.token
        (colon.token :: type.token :: equals.token :: value.first n :: value.others n) =
      (Node.parseExpr (value.first n) (value.others n)).map
        (.decl name.lexeme type.lexeme · name.pos) := rfl
    refine .trans ?_ (n.judge_mapError (fun _ => rfl) _).symm
    rw [first, others, value.fill_yield, hparse, hvalue, n.judge_map]
    rfl
  | assignment name equals value =>
    have hvalue := value.parseExpr_fill n h.of_cons.of_cons
    have hparse : Node.parseStatement name.token
        (equals.token :: value.first n :: value.others n) =
      (Node.parseExpr (value.first n) (value.others n)).map (.assign name.lexeme · name.pos) := rfl
    refine .trans ?_ (n.judge_mapError (fun _ => rfl) _).symm
    rw [first, others, value.fill_yield, hparse, hvalue, n.judge_map]
    rfl
  | call name left args right =>
    have hargs := args.parseArgs_fill n h.of_cons.of_cons.of_append_left
    have hparse : Node.parseStatement name.token
        (left.token :: (args.fill n.yield ++ [right.token])) =
      (Node.parseArgs [] (args.fill n.yield)).map (.call name.lexeme · name.pos) := by
      simp [Node.parseStatement, Leaf.token]
    refine .trans ?_ (n.judge_mapError (fun _ => rfl) _).symm
    rw [first, others, hparse, hargs, n.judge_map]
    rfl
  | expression value =>
    rw [first, others, parseStatement_expression, Node.parseExprStatement, value.parseExpr_fill n h]
    unfold Literal.judge
    cases n.failure? with
    | none => rfl
    | some failure => cases failure <;> rfl

end StatementHole

/-! ## Programs -/

section Programs
variable {before : Derivation} {hole : StatementHole} (n : Literal) (semicolon : Leaf .semicolon)
  (rest : List Token)

/-- **A program is parsed around a literal.** -/
theorem parse_fill (hbefore : Legible before.yield) (hhole : Legible (hole.fill [])) :
    Node.parse (before.yield ++ (hole.fill n.yield ++ semicolon.token :: rest)) =
      (do let statement ← (n.judge (hole.tree n)).mapError (hole.report n)
          (Node.parse rest).map (before.tree ++ statement :: ·)) := by
  rw [parse_yield hbefore, hole.fill_yield, parse_statement (hole.kind_not_mem_terminators n),
    hole.parseStatement_fill n hhole]
  cases (n.judge (hole.tree n)).mapError (hole.report n) with
  | error failure => rfl
  | ok statement => cases Node.parse rest <;> rfl

/-- **How an integer literal is judged.**  Let a literal stand in the place of an atom, in a
statement that is in order otherwise and has statements in order before it.

* If its digits can be read and their value is not above the limit, which is one higher with a minus
  sign than without, the statement holds its value at the place of its first token.
* If they can be read and their value is above the limit, the literal is rejected at the place of
  its first token; in a bare expression, the statement is rejected at the place of its own first
  token.
* If there are too many of them to be read, the parser fails without rejecting anything, whatever
  their value is. -/
theorem parse_literal (hbefore : Legible before.yield) (hhole : Legible (hole.fill [])) :
    (n.digits.lexeme.length ≤ Text.Numeral.maxDigits → n.magnitude ≤ n.limit →
      Node.parse (before.yield ++ (hole.fill n.yield ++ semicolon.token :: rest)) =
        (Node.parse rest).map (before.tree ++ hole.tree n :: ·)) ∧
    (n.digits.lexeme.length ≤ Text.Numeral.maxDigits → n.limit < n.magnitude →
      Node.parse (before.yield ++ (hole.fill n.yield ++ semicolon.token :: rest)) =
        .error (hole.report n (.fault (.literalTooLarge n.written) n.first.pos))) ∧
    (Text.Numeral.maxDigits < n.digits.lexeme.length →
      Node.parse (before.yield ++ (hole.fill n.yield ++ semicolon.token :: rest)) =
        .error (.defect (.numeralTooLong n.digits.lexeme.length))) := by
  rw [parse_fill n semicolon rest hbefore hhole, Literal.judge]
  refine ⟨fun hshort hv => ?_, fun hshort hv => ?_, fun hlong => ?_⟩
  · have hnone : n.failure? = none := by
      rw [Literal.failure?, if_neg (Nat.not_lt.mpr hshort), if_neg (Nat.not_lt.mpr hv)]
    rw [hnone]
    rfl
  · have hsome : n.failure? = some (.fault (.literalTooLarge n.written) n.first.pos) := by
      rw [Literal.failure?, if_neg (Nat.not_lt.mpr hshort), if_pos hv]
    rw [hsome]
    rfl
  · have hsome : n.failure? = some (.defect (.numeralTooLong n.digits.lexeme.length)) := by
      rw [Literal.failure?, if_pos hlong]
    rw [hsome]
    simp

end Programs

theorem legible_nil : Legible (Derivation.yield []) :=
  fun _ ht => absurd ht List.not_mem_nil

/-- The last operand of a call with two arguments. -/
def lastOperand : StatementHole :=
  .call ⟨"f", ⟨2, 1⟩⟩ ⟨"(", ⟨2, 2⟩⟩ (.next (.atom (.string ⟨"s", ⟨2, 3⟩⟩)) ⟨",", ⟨2, 6⟩⟩
    (.last (.rightOf (.name ⟨"x", ⟨2, 8⟩⟩) .subtract ⟨"-", ⟨2, 10⟩⟩))) ⟨")", ⟨2, 23⟩⟩

/-- The digits of 2147483648 in another script. -/
def powerDigits (pos : Pos) : Digits where
  lexeme := "٢١٤٧٤٨٣٦٤٨"
  pos := pos
  nonempty := by decide
  digits := List.all_eq_true.mp (by decide)

/-- The number is subtracted if it has a minus sign, and rejected if it has none. -/
theorem parse_literal_lastOperand :
    Node.parse (lastOperand.fill [⟨.minus, "-", ⟨2, 12⟩⟩, (powerDigits ⟨2, 13⟩).token] ++
        [⟨.semicolon, ";", ⟨2, 24⟩⟩, ⟨.endOfText, "", ⟨2, 25⟩⟩]) =
      .ok [.call "f" [.str "s" ⟨2, 3⟩, .binary (.arith .subtract) (.ident "x" ⟨2, 8⟩)
        (.int (-2147483648) ⟨2, 12⟩) ⟨2, 8⟩] ⟨2, 1⟩] ∧
    Node.parse (lastOperand.fill [(powerDigits ⟨2, 13⟩).token] ++
        [⟨.semicolon, ";", ⟨2, 24⟩⟩, ⟨.endOfText, "", ⟨2, 25⟩⟩]) =
      .error (.fault (.literalTooLarge "٢١٤٧٤٨٣٦٤٨") ⟨2, 13⟩) := by
  have hhole : Legible (lastOperand.fill []) := by
    simp [Legible, lastOperand, StatementHole.fill, ArgsHole.fill, ExprHole.fill, Expr.yield,
      Expr.first, Expr.others, Atom.yield, Atom.first, Atom.others, Leaf.token, Arith.token]
  have hneg := parse_literal (.negative ⟨"-", ⟨2, 12⟩⟩ (powerDigits ⟨2, 13⟩)) ⟨";", ⟨2, 24⟩⟩
    [⟨.endOfText, "", ⟨2, 25⟩⟩] legible_nil hhole
  have hplain := parse_literal (.plain (powerDigits ⟨2, 13⟩)) ⟨";", ⟨2, 24⟩⟩
    [⟨.endOfText, "", ⟨2, 25⟩⟩] legible_nil hhole
  exact ⟨hneg.1 (by decide) (by decide), hplain.2.1 (by decide) (by decide)⟩

/-- Zeros, one and `k` more. -/
def zeros (k : Nat) (pos : Pos) : Digits where
  lexeme := String.ofList (List.replicate (k + 1) '0')
  pos := pos
  nonempty := by simp
  digits := by
    intro c hc
    rw [String.toList_ofList] at hc
    rw [List.eq_of_mem_replicate hc]
    decide

/-- They have the value zero, however many they are. -/
theorem magnitude_zeros (k : Nat) (pos : Pos) : (Literal.plain (zeros k pos)).magnitude = 0 := by
  have hfold : ∀ m, (List.replicate m 0).foldl (fun n d => 10 * n + d) 0 = 0 := by
    intro m
    induction m with
    | zero => rfl
    | succ m ih => rwa [List.replicate_succ, List.foldl_cons]
  have hzero : Text.digitValue? '0' = some 0 := by decide
  rw [Literal.magnitude, Literal.digits, zeros, String.toList_ofList, Text.decimalValue,
    List.filterMap_replicate_of_some hzero, hfold]

theorem length_zeros (k : Nat) (pos : Pos) : (zeros k pos).lexeme.length = k + 1 := by
  rw [zeros, String.length_ofList, List.length_replicate]

/-- **A zero can be too long.**  Its value is a 32-bit integer, but the parser fails with a
complaint about the number of digits, which is no rejection. -/
theorem parse_leading_zeros :
    (Literal.plain (zeros 4300 ⟨1, 5⟩)).magnitude = 0 ∧
      Node.parse [⟨.identifier, "x", ⟨1, 1⟩⟩, ⟨.assign, "=", ⟨1, 3⟩⟩, (zeros 4300 ⟨1, 5⟩).token,
        ⟨.semicolon, ";", ⟨1, 4306⟩⟩, ⟨.endOfText, "", ⟨1, 4307⟩⟩] =
      .error (.defect (.numeralTooLong 4301)) := by
  have hfailure : (Literal.plain (zeros 4300 ⟨1, 5⟩)).failure? =
      some (.defect (.numeralTooLong 4301)) := by
    rw [Literal.failure?, Literal.digits, length_zeros]
    rfl
  have hhole : Legible
      (StatementHole.fill [] (.assignment ⟨"x", ⟨1, 1⟩⟩ ⟨"=", ⟨1, 3⟩⟩ .whole)) := by
    simp [Legible, StatementHole.fill, ExprHole.fill, Leaf.token]
  have hparse := parse_fill (.plain (zeros 4300 ⟨1, 5⟩)) ⟨";", ⟨1, 4306⟩⟩
    [⟨.endOfText, "", ⟨1, 4307⟩⟩] legible_nil hhole
  rw [Literal.judge, hfailure] at hparse
  exact ⟨magnitude_zeros 4300 ⟨1, 5⟩, hparse⟩

end Grammar
end Risclet
