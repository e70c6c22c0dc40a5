import Risclet.Node
import Risclet.Text.Display
import Risclet.Text.Lines

/-! # Printing trees

A node is printed as its kind with its fields in parentheses, each with its name; texts are
displayed between quotes, lists between brackets.  A program is printed with one statement on a
line, after the statement's kind.
-/
namespace Risclet
namespace Node

/-- The word for a node's kind. -/
def kindName : Node → String
  | int _ _ => "IntLiteral"
  | str _ _ => "StringLiteral"
  | ident _ _ => "Identifier"
  | binary _ _ _ _ => "BinaryExpr"
  | decl _ _ _ _ => "VarDecl"
  | assign _ _ _ => "Assignment"
  | call _ _ _ => "SubroutineCall"
  | expr _ _ => "ExprStmt"
  | program _ => "Program"
  | foreign _ => "str"
  | absent => "NoneType"

/-- An operator inside a printed node. -/
def displayOperator : Operator → String
  | .arith op => "<BinaryOp." ++ op.name ++ ": '" ++ op.sign ++ "'>"
  | .foreign text => Text.display text

/-- The last two fields of a printed node. -/
def displayPos (p : Pos) : String :=
  "line=" ++ toString p.line ++ ", column=" ++ toString p.column

mutual

/-- A node inside another. -/
def display : Node → String
  | int value p => "IntLiteral(value=" ++ toString value ++ ", " ++ displayPos p ++ ")"
  | str value p => "StringLiteral(value=" ++ Text.display value ++ ", " ++ displayPos p ++ ")"
  | ident name p => "Identifier(name=" ++ Text.display name ++ ", " ++ displayPos p ++ ")"
  | binary op left right p =>
    "BinaryExpr(op=" ++ displayOperator op ++ ", left=" ++ left.display ++ ", right=" ++
      right.display ++ ", " ++ displayPos p ++ ")"
  | decl name typeName initialiser p =>
    "VarDecl(name=" ++ Text.display name ++ ", type_name=" ++ Text.display typeName ++
      ", initialiser=" ++ initialiser.display ++ ", " ++ displayPos p ++ ")"
  | assign name value p =>
    "Assignment(name=" ++ Text.display name ++ ", value=" ++ value.display ++ ", " ++
      displayPos p ++ ")"
  | call name args p =>
    "SubroutineCall(name=" ++ Text.display name ++ ", args=[" ++
      ", ".intercalate (displayAll args) ++ "], " ++ displayPos p ++ ")"
  | expr value p => "ExprStmt(expr=" ++ value.display ++ ", " ++ displayPos p ++ ")"
  | program statements => "Program(statements=[" ++ ", ".intercalate (displayAll statements) ++ "])"
  | foreign text => Text.display text
  | absent => "None"

/-- The nodes of a list. -/
def displayAll : List Node → List String
  | [] => []
  | node :: nodes => node.display :: displayAll nodes

end

/-- A node on its own: what is no node is printed without quotes. -/
def text : Node → String
  | foreign text => text
  | node => node.display

/-- The lines of a printed program, each `depth` steps to the right. -/
def printedLines (statements : List Node) (depth : Nat) : List String :=
  let margin := String.ofList (List.replicate (2 * depth) ' ')
  (margin ++ "Program") :: statements.map (fun s => margin ++ "  " ++ s.kindName ++ ": " ++ s.text)

/-- A printed program, `depth` steps to the right. -/
def print (statements : List Node) (depth : Nat) : String :=
  Text.unlines (printedLines statements depth)

end Node
end Risclet
