import Risclet.DataType
import Risclet.Text.Quoted

/-! # Data items

The operands of tuple instructions: literals, variables, and the results of operations earlier
in the same statement.
-/
namespace Risclet

/-- An operand, or what was put in the place of one. -/
inductive Item where
  /-- An integer. -/
  | int (value : Int)
  /-- A string. -/
  | str (value : String)
  /-- The value of a variable. -/
  | ident (name : String)
  /-- The result of the operation with this number. -/
  | temp (id : Int)
  /-- Something that is no operand. -/
  | foreign (text : String)
  /-- Nothing. -/
  | absent
deriving DecidableEq, Repr

namespace Item

/-- The item in listings. -/
def text : Item → String
  | int value => toString value
  | str value => Text.Quoted.quote value
  | ident name => name
  | temp id => "t" ++ toString id
  | foreign text => text
  | absent => "None"

/-- The type of a literal. -/
def literalType? : Item → Option DataType
  | int _ => some .int32
  | str _ => some .string
  | _ => none

end Item
end Risclet
