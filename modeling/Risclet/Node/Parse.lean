import Risclet.DataType
import Risclet.Error
import Risclet.Node
import Risclet.Text.Numeral
import Risclet.Token

/-! # Parsing

The language is flat: every statement ends in a semicolon, and an expression is one atom or one
operation on two atoms.  Parsing therefore cuts the tokens at the semicolons and tells each
statement's form from its first tokens:

* `name : type` and `name : type = expression` declare a variable;
* `name = expression` assigns to one;
* `name ( expression , … )` calls a subroutine;
* anything else has to be an expression; it is kept as a statement for a later stage to reject.

Tokens after the first end of text do not count.  A statement is parsed as soon as its semicolon
is reached, so of several faults the first in the text is reported.
-/
namespace Risclet
namespace Node

/-! ## Expressions -/

/-- The 32-bit integer that a numeral at `pos` stands for. -/
def intValue (written : String) (pos : Pos) : Except Failure Int :=
  match Text.Numeral.read written with
  | .error .malformed => .error (.defect (.malformedNumeral written))
  | .error (.tooLong digits) => .error (.defect (.numeralTooLong digits))
  | .ok value =>
    if IsInt32 value then .ok value else .error (.fault (.literalTooLarge written) pos)

/-- Parses an atom that begins with the token `first`: a name, a string, or an integer with or
without a minus sign.  What is left comes with it. -/
def parseAtom (first : Token) (rest : List Token) : Except Failure (Node × List Token) :=
  match first.kind, rest with
  | .identifier, _ => .ok (.ident first.lexeme first.pos, rest)
  | .stringLiteral, _ => .ok (.str first.lexeme first.pos, rest)
  | .intLiteral, _ => (intValue first.lexeme first.pos).map (fun v => (.int v first.pos, rest))
  | .minus, ⟨.intLiteral, digits, _⟩ :: rest =>
    (intValue ("-" ++ digits) first.pos).map (fun v => (.int v first.pos, rest))
  | _, _ => .error (.fault (.expectedValue first.lexeme) first.pos)

/-- Parses all of `first :: rest` as an expression. -/
def parseExpr (first : Token) (rest : List Token) : Except Failure Node := do
  let (left, rest) ← parseAtom first rest
  match rest with
  | [] => return left
  | sign :: rest =>
    match sign.kind.arith?, rest with
    | none, _ => .error (.fault (.invalidOperator sign.lexeme) sign.pos)
    | some _, [] => .error (.fault (.missingRightOperand sign.lexeme) sign.pos)
    | some op, second :: rest => do
      let (right, rest) ← parseAtom second rest
      match rest with
      | [] => return .binary (.arith op) left right first.pos
      | extra :: _ => .error (.fault .secondOperation extra.pos)

/-! ## Statements -/

/-- Parses arguments that are separated by commas; `current` holds the tokens of the argument that
has been begun.  A list of arguments that is not empty does not end in a comma. -/
def parseArgs (current : List Token) : List Token → Except Failure (List Node)
  | [] =>
    match current with
    | [] => .ok []
    | first :: rest => (parseExpr first rest).map ([·])
  | token :: tokens =>
    if token.kind = .comma then
      match current with
      | [] => .error (.fault .emptyArgument token.pos)
      | first :: rest => do
        let arg ← parseExpr first rest
        if tokens.isEmpty then .error (.fault .emptyArgument token.pos)
        else
          let args ← parseArgs [] tokens
          return arg :: args
    else parseArgs (current ++ [token]) tokens

/-- Parses a statement that has none of the particular forms.  Whatever is wrong with it as an
expression, it is reported as a statement without structure. -/
def parseExprStatement (first : Token) (rest : List Token) : Except Failure Node :=
  match parseExpr first rest with
  | .ok value => .ok (.expr value first.pos)
  | .error (.rejected _) => .error (.fault .unrecognisedStatement first.pos)
  | .error (.defect d) => .error (.defect d)

/-- Parses what follows the type in the declaration of `name`. -/
def parseDeclaration (name typeName : String) (pos : Pos) :
    List Token → Except Failure Node
  | [] => .ok (.decl name typeName .absent pos)
  | equals :: value =>
    if equals.kind ≠ .assign then .error (.fault .missingEquals equals.pos)
    else
      match value with
      | [] => .error (.fault .missingInitialiser equals.pos)
      | first :: rest =>
        (parseExpr first rest).map (fun initialiser => .decl name typeName initialiser pos)

/-- Parses what follows the equals sign in an assignment to `name`. -/
def parseAssignment (name : String) (pos equals : Pos) : List Token → Except Failure Node
  | [] => .error (.fault .missingValue equals)
  | first :: rest => (parseExpr first rest).map (fun value => .assign name value pos)

/-- Parses a statement; its tokens are `first :: rest`, without the semicolon. -/
def parseStatement (first : Token) (rest : List Token) : Except Failure Node :=
  match first.kind, rest with
  | .identifier, ⟨.colon, _, _⟩ :: ⟨.identifier, typeName, _⟩ :: tail =>
    parseDeclaration first.lexeme typeName first.pos tail
  | .identifier, ⟨.assign, _, equals⟩ :: value =>
    parseAssignment first.lexeme first.pos equals value
  | .identifier, ⟨.leftParen, _, _⟩ :: inside =>
    if inside.getLast?.map Token.kind = some .rightParen then
      (parseArgs [] inside.dropLast).map (fun args => .call first.lexeme args first.pos)
    else parseExprStatement first rest
  | _, _ => parseExprStatement first rest

/-! ## Programs -/

/-- Ends a program, where `current` holds tokens that no semicolon followed.  The place where it
should stand is the one after the last of them. -/
def parseEnd (current : List Token) : Except Failure (List Node) :=
  match current.getLast? with
  | none => .ok []
  | some last => .error (.fault .missingSemicolon (last.pos.right last.lexeme.length))

/-- Parses statements; `current` holds the tokens of the statement that has been begun. -/
def parseFrom (current : List Token) : List Token → Except Failure (List Node)
  | [] => parseEnd current
  | token :: tokens =>
    match token.kind with
    | .endOfText => parseEnd current
    | .semicolon =>
      match current with
      | [] => .error (.fault .emptyStatement token.pos)
      | first :: rest => do
        let statement ← parseStatement first rest
        let statements ← parseFrom [] tokens
        return statement :: statements
    | _ => parseFrom (current ++ [token]) tokens

/-- The statements that a list of tokens is. -/
def parse (tokens : List Token) : Except Failure (List Node) :=
  parseFrom [] tokens

end Node
end Risclet
