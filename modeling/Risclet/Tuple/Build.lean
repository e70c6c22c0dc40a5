import Risclet.Error
import Risclet.Node
import Risclet.Options
import Risclet.Tuple

/-! # From trees to tuple instructions

Each statement becomes one instruction, or two if its value is an operation.  On the way the
rules of the language are checked:

* a statement is a declaration, an assignment, or a call with one argument;
* a declaration names one of the two types and no reserved symbol;
* operands are integers of 32 bits and names, which have to be declared unless that is waived;
* a literal is stored only into a variable of its own type, and a string only by the first
  declaration of a variable, because later stores go through registers and strings have no place
  there.

A variable keeps the type of its first declaration.  The state that goes from one statement to
the next is the table of the variables declared so far.
-/
namespace Risclet
namespace Tuple

variable (o : Options) (vars : Table DataType)

/-! ## Operands -/

/-- Rejects a name that was not declared, unless that is waived. -/
def checkDeclared (name : String) (pos : Pos) : Except Error Unit :=
  if o.strict = true ∧ vars.contains name = false then .error ⟨.undeclaredName name, pos⟩
  else .ok ()

/-- The item that a literal or a name is. -/
def toItem : Node → Except Error Item
  | .int value pos =>
    if IsInt32 value then .ok (.int value) else .error ⟨.valueOutOfRange value, pos⟩
  | .str value _ => .ok (.str value)
  | .ident name pos => (checkDeclared o vars name pos).map (fun _ => .ident name)
  | node => .error ⟨.notAnItem, node.pos⟩

/-- The item of a node that goes into a register: no string. -/
def toOperand (node : Node) : Except Error Item :=
  match toItem o vars node with
  | .ok (.str _) => .error ⟨.stringOperand, node.pos⟩
  | result => result

/-! ## Values -/

/-- The instructions that compute a value, and the item that holds it. -/
def flattenValue : Node → Except Error (List Instr × Item)
  | .binary op left right _ => do
    let left ← toOperand o vars left
    let right ← toOperand o vars right
    return ([.binary op left right 0], .temp 0)
  | node => (toItem o vars node).map (fun item => ([], item))

/-- Rejects a literal that cannot be stored into the variable `name`.  `declared` is the variable's
type, if it is known, and `first` says whether this is its first declaration. -/
def checkLiteral (name : String) (declared : Option DataType) (value : Item) (first : Bool)
    (pos : Pos) : Except Error Unit :=
  match value.literalType? with
  | none => .ok ()
  | some literal =>
    if literal = .string ∧ first = false then .error ⟨.stringStore name, pos⟩
    else
      match declared with
      | none => .ok ()
      | some type =>
        if type = literal then .ok () else .error ⟨.literalType literal type name, pos⟩

/-! ## Statements -/

/-- The type that a declaration at `pos` names. -/
def declaredType (typeName : String) (pos : Pos) : Except Error DataType :=
  match DataType.ofName? typeName with
  | some type => .ok type
  | none => .error ⟨.unknownType typeName, pos⟩

/-- The table after a declaration: a name that is there already keeps its type. -/
def declare (name : String) (type : DataType) : Table DataType :=
  if vars.contains name then vars else vars.set name type

/-- The instructions of a declaration's initialiser, and the item that it declares the variable
with. -/
def flattenInitialiser (name : String) (type : DataType) (pos : Pos) :
    Node → Except Error (List Instr × Item)
  | .absent => .ok ([], .absent)
  | initialiser => do
    let (code, value) ← flattenValue o vars initialiser
    checkLiteral name (some ((vars.get? name).getD type)) value (!vars.contains name) pos
    return (code, value)

/-- The instructions of a declaration, and the table after it.  The name is entered last, when the
initialiser has been looked at. -/
def flattenDeclaration (name typeName : String) (initialiser : Node) (pos : Pos) :
    Table DataType × Except Error (List Instr) :=
  match declaredType typeName pos with
  | .error e => (vars, .error e)
  | .ok type =>
    if o.reserved.contains name then (vars, .error ⟨.reservedName name, pos⟩)
    else
      match flattenInitialiser o vars name type pos initialiser with
      | .error e => (vars, .error e)
      | .ok (code, value) => (declare vars name type, .ok (code ++ [.declare name type value]))

/-- The instructions of an assignment. -/
def flattenAssignment (name : String) (value : Node) (pos : Pos) : Except Error (List Instr) := do
  checkDeclared o vars name pos
  let (code, item) ← flattenValue o vars value
  checkLiteral name (vars.get? name) item false pos
  return code ++ [.assign name item]

/-- The instructions of a call. -/
def flattenCall (name : String) (args : List Node) (pos : Pos) : Except Error (List Instr) :=
  match args with
  | [arg] => (toOperand o vars arg).map (fun item => [.call name [item]])
  | args => .error ⟨.argumentCount name args.length, pos⟩

/-- The instructions of a statement, and the table after it. -/
def flatten : Node → Table DataType × Except Error (List Instr)
  | .decl name typeName initialiser pos => flattenDeclaration o vars name typeName initialiser pos
  | .assign name value pos => (vars, flattenAssignment o vars name value pos)
  | .call name args pos => (vars, flattenCall o vars name args pos)
  | node => (vars, .error ⟨.unexpectedStatement, node.pos⟩)

/-! ## Programs -/

/-- The instructions of statements, in order, up to the first that is rejected; and the table that
is then reached. -/
def flattenAll (o : Options) (vars : Table DataType) :
    List Node → Table DataType × Except Error (List Instr)
  | [] => (vars, .ok [])
  | statement :: statements =>
    match flatten o vars statement with
    | (vars, .error e) => (vars, .error e)
    | (vars, .ok code) =>
      let (last, result) := flattenAll o vars statements
      (last, result.map (code ++ ·))

/-- The tuple program of some statements, and the table that it leaves even if one is rejected. -/
def build (o : Options) (statements : List Node) : Table DataType × Except Error Program :=
  let (vars, result) := flattenAll o Table.empty statements
  (vars, result.map (fun instrs => ⟨instrs, vars⟩))

/-- The tuple program of some statements. -/
def Program.ofStatements (o : Options) (statements : List Node) : Except Error Program :=
  (build o statements).2

end Tuple
end Risclet
