import Risclet.DataType
import Risclet.Pos
import Risclet.Register
import Risclet.Text.Halves

/-! # Errors

A program is rejected with a *fault*, which says what is wrong, and a position, which says where.
The wording of each fault stands in one place, `Fault.message`.  Stages can also be handed things
that they cannot treat at all, such as a register that no machine has; that is a *defect* and has no
position.  `Failure` is one or the other.  Where texts may hold halves of surrogate pairs, one that
cannot be encoded is a third thing that goes wrong (`TextFailure`).
-/
namespace Risclet

/-- The classes of faults. -/
inductive ErrorKind where
  /-- Characters that make no token. -/
  | lexical
  /-- Tokens that make no statement. -/
  | grammar
  /-- A statement that cannot be compiled. -/
  | statement
  /-- An operand or value that cannot stand where it does. -/
  | item
  /-- An operator that is none of the four. -/
  | operation
  /-- A type without storage. -/
  | dataType
  /-- A name that was not declared. -/
  | undeclared
  /-- A variable with the name of a label or library symbol. -/
  | reserved
deriving DecidableEq, Repr

/-- What is wrong with a program. -/
inductive Fault where
  | unterminatedString
  | unexpectedCharacter (c : Char)
  | unknownEscape (c : Char)
  | emptyStatement
  | missingSemicolon
  | missingEquals
  | missingInitialiser
  | missingValue
  | emptyArgument
  | unrecognisedStatement
  | invalidOperator (lexeme : String)
  | missingRightOperand (lexeme : String)
  | secondOperation
  | expectedValue (lexeme : String)
  /-- An integer literal, as it is written, is no 32-bit integer. -/
  | literalTooLarge (written : String)
  | unexpectedStatement
  | argumentCount (subroutine : String) (count : Nat)
  | unknownType (name : String)
  | reservedName (name : String)
  | undeclaredName (name : String)
  /-- An integer in a tree is no 32-bit integer. -/
  | valueOutOfRange (value : Int)
  | stringOperand
  | notAnItem
  | stringStore (target : String)
  | literalType (literal declared : DataType) (target : String)
  | initialiserType (literal declared : DataType) (target : String)
  | foreignItem (text target : String)
  | callArgumentCount (subroutine : String) (count : Nat)
  | unloadable (shown : String)
  | foreignOperation (text : String)
  | foreignType (text : String)
  | foreignTypeOf (text target : String)
deriving DecidableEq, Repr

namespace Fault

/-- The class of a fault. -/
def kind : Fault → ErrorKind
  | unterminatedString | unexpectedCharacter _ | unknownEscape _ => .lexical
  | emptyStatement | missingSemicolon | missingEquals | missingInitialiser | missingValue
  | emptyArgument | unrecognisedStatement | invalidOperator _ | missingRightOperand _
  | secondOperation | expectedValue _ | literalTooLarge _ => .grammar
  | unexpectedStatement | argumentCount _ _ => .statement
  | unknownType _ | foreignType _ | foreignTypeOf _ _ => .dataType
  | reservedName _ => .reserved
  | undeclaredName _ => .undeclared
  | valueOutOfRange _ | stringOperand | notAnItem | stringStore _ | literalType _ _ _
  | initialiserType _ _ _ | foreignItem _ _ | callArgumentCount _ _ | unloadable _ => .item
  | foreignOperation _ => .operation

/-- The wording of a fault. -/
def message : Fault → String
  | unterminatedString => "Unterminated string literal"
  | unexpectedCharacter c => "Unexpected character " ++ Text.display (String.singleton c)
  | unknownEscape c => "Unknown escape sequence '\\" ++ String.singleton c ++ "'"
  | emptyStatement => "Empty statement"
  | missingSemicolon => "Expected ';' at end of statement"
  | missingEquals => "Expected '=' after variable type"
  | missingInitialiser => "Missing initialiser after '='"
  | missingValue => "Missing value after '='"
  | emptyArgument => "Empty argument"
  | unrecognisedStatement => "Unrecognised statement structure"
  | invalidOperator lexeme => "Invalid operator '" ++ lexeme ++ "'"
  | missingRightOperand lexeme => "Missing right operand for '" ++ lexeme ++ "'"
  | secondOperation => "Only a single binary operation is allowed per expression"
  | expectedValue lexeme => "Expected a value, found '" ++ lexeme ++ "'"
  | literalTooLarge written => "Integer literal " ++ written ++ " does not fit in Int32"
  | unexpectedStatement =>
    "Unexpected statement in program; only variable declaration, " ++
      "assignment, and subroutine calling are allowed here"
  | argumentCount subroutine count =>
    "Subroutine '" ++ subroutine ++ "' must be called with exactly one argument, got " ++
      toString count
  | unknownType name => "Invalid data type '" ++ name ++ "'"
  | reservedName name =>
    "'" ++ name ++ "' is reserved for the program entry or the runtime library " ++
      "and cannot name a variable"
  | undeclaredName name =>
    "Undeclared identifier '" ++ name ++ "': variable has not been declared"
  | valueOutOfRange value => "Integer literal " ++ toString value ++ " does not fit in Int32"
  | stringOperand =>
    "String literal cannot be used as an operand; strings may only initialise a declaration"
  | notAnItem => "Invalid data item: expected a literal or identifier"
  | stringStore target =>
    "String literal cannot be stored into '" ++ target ++ "' at runtime; " ++
      "strings may only initialise a variable's first declaration"
  | literalType literal declared target =>
    "Cannot store a " ++ literal.name ++ " literal into " ++ declared.name ++ " variable '" ++
      target ++ "'"
  | initialiserType literal declared target =>
    "Cannot initialise " ++ declared.name ++ " variable '" ++ target ++ "' with a " ++
      literal.name ++ " literal"
  | foreignItem text target =>
    "Invalid data item " ++ Text.display text ++ " for '" ++ target ++ "'"
  | callArgumentCount subroutine count =>
    "Subroutine '" ++ subroutine ++ "' takes exactly one argument, got " ++ toString count
  | unloadable shown =>
    "Cannot load " ++ shown ++ " into a register; " ++
      "only integer literals and variables are allowed here"
  | foreignOperation text => "Invalid operation type " ++ text
  | foreignType text => "Invalid data type " ++ Text.display text
  | foreignTypeOf text target =>
    "Invalid data type " ++ Text.display text ++ " for '" ++ target ++ "'"

end Fault

/-! ## Reports -/

/-- A message about a place in a source text. -/
structure Report where
  message : String
  pos : Pos := Pos.unknown
deriving DecidableEq, Repr

namespace Report

/-- The report on its own: the place, if it is known, and the message. -/
def text (r : Report) : String :=
  if r.pos = Pos.unknown then r.message
  else "Line " ++ toString r.pos.line ++ ":" ++ toString r.pos.column ++ " - " ++ r.message

/-- The report on a file.  Without a path, or with an empty one, the text is called `<source>`. -/
def located (r : Report) (path : Option String) : String :=
  let file := match path with
    | none => "<source>"
    | some p => if p = "" then "<source>" else p
  let place :=
    if r.pos = Pos.unknown then file
    else file ++ ":" ++ toString r.pos.line ++ ":" ++ toString r.pos.column
  place ++ ": error: " ++ r.message

end Report

/-- A fault and where it is. -/
structure Error where
  fault : Fault
  pos : Pos := Pos.unknown
deriving DecidableEq, Repr

/-- The report of an error. -/
def Error.report (e : Error) : Report :=
  ⟨e.fault.message, e.pos⟩

/-! ## Defects and failures -/

/-- What a stage cannot treat. -/
inductive Defect where
  /-- The text between two quotes ends in a backslash. -/
  | danglingBackslash
  /-- A lexeme that should be a numeral is none. -/
  | malformedNumeral (written : String)
  /-- A numeral has more digits than are read. -/
  | numeralTooLong (digits : Nat)
  /-- Something among the tuple instructions is no instruction. -/
  | foreignTuple
  /-- Something among the register instructions is no instruction. -/
  | foreignLower
  /-- The machine has no register for this one; its bank has `size` of them. -/
  | registerOutsideBank (r : Register) (size : Nat)
deriving DecidableEq, Repr

/-- The wording of a defect.  Of a malformed numeral at most 200 displayed characters are shown. -/
def Defect.message : Defect → String
  | danglingBackslash => "string index out of range"
  | malformedNumeral written =>
    "invalid literal for int() with base 10: " ++
      String.ofList ((Text.display written).toList.take 200)
  | numeralTooLong digits =>
    "Exceeds the limit (4300 digits) for integer string conversion: value has " ++
      toString digits ++
      " digits; use sys.set_int_max_str_digits() to increase the limit"
  | foreignTuple => "Unknown tuple IR instruction: str"
  | foreignLower => "Unknown lower IR instruction: str"
  | registerOutsideBank r size =>
    "Register " ++ r.text ++ " is outside its bank (" ++ toString size ++ " registers)"

/-- Why a stage gives no result. -/
inductive Failure where
  /-- The program is rejected. -/
  | rejected (e : Error)
  /-- The stage was given something it cannot treat. -/
  | defect (d : Defect)
deriving DecidableEq, Repr

/-- The failure with a fault at a place. -/
def Failure.fault (f : Fault) (pos : Pos) : Failure :=
  .rejected ⟨f, pos⟩

/-- Why a stage gives no result where texts may hold halves of surrogate pairs. -/
inductive TextFailure where
  | failure (f : Failure)
  /-- A text cannot be encoded. -/
  | unencodable (f : Text.EncodeFault)
deriving DecidableEq, Repr

end Risclet
