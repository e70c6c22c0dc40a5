import Risclet.Operator
import Risclet.Pos

/-! # Trees

A program is a list of statements; statements and expressions are nodes of one kind of tree.
The tree is loose: any node may stand where another belongs, and so may things that are no nodes
at all.  What the parser makes is always in order; a tree that was put together by hand need not
be, and the stage that flattens it into tuple instructions rejects what it cannot use.
-/
namespace Risclet

/-- A statement, an expression, or what was put in the place of one. -/
inductive Node where
  /-- An integer. -/
  | int (value : Int) (pos : Pos)
  /-- A string. -/
  | str (value : String) (pos : Pos)
  /-- A name in an expression. -/
  | ident (name : String) (pos : Pos)
  /-- An operation on two operands. -/
  | binary (op : Operator) (left right : Node) (pos : Pos)
  /-- The declaration of a variable; without initialiser, that is `absent`. -/
  | decl (name typeName : String) (initialiser : Node) (pos : Pos)
  /-- An assignment. -/
  | assign (name : String) (value : Node) (pos : Pos)
  /-- The call of a subroutine. -/
  | call (name : String) (args : List Node) (pos : Pos)
  /-- An expression in the place of a statement. -/
  | expr (value : Node) (pos : Pos)
  /-- A whole program. -/
  | program (statements : List Node)
  /-- Something that is no node. -/
  | foreign (text : String)
  /-- Nothing. -/
  | absent
deriving Inhabited

namespace Node

/-- Where a node stands; only statements and expressions know. -/
def pos : Node → Pos
  | int _ p | str _ p | ident _ p | binary _ _ _ p | decl _ _ _ p | assign _ _ p | call _ _ p
  | expr _ p => p
  | program _ | foreign _ | absent => Pos.unknown

end Node
end Risclet
