import Risclet.Error
import Risclet.Lower
import Risclet.Options
import Risclet.Tuple

/-! # From tuple instructions to register instructions

Nothing stays in a register from one tuple instruction to the next but the result of an
operation, so every instruction uses the first registers of each bank afresh:

* a stored value goes through `v1`, or is stored straight from the register of an operation's
  result; `v0` takes the address;
* the argument of a call goes to `p0`;
* the operands of an operation are loaded into `v0` and `v1` in order, unless they are results
  themselves; the result goes to the register with its number in the bank of results.

The first declaration of a variable with a literal leaves no instruction: the literal becomes
the initial value of the variable's slot.

The state that goes from one instruction to the next is the table of slots and the names
declared so far.  A declaration counts as such even if it is rejected.
-/
namespace Risclet
namespace Lower

/-- What is known after some instructions. -/
structure State where
  slots : Table Slot := Table.empty
  /-- The names that have been declared. -/
  declared : List String := []
deriving DecidableEq, Repr

/-- The initial value of a variable that has none of its own. -/
def defaultValue : DataType → Except Error String
  | .int32 => .ok "0"
  | .string => .ok "\"\""
  | .foreign text => .error ⟨.foreignType text, Pos.unknown⟩

/-! ## Loads and stores -/

/-- Loads an integer or a variable into a register. -/
def load (item : Item) (dest : Register) : Except Error Instr :=
  match item with
  | .int value => .ok (.loadLit dest value)
  | .ident name => .ok (.loadVar name dest)
  | item => .error ⟨.unloadable item.text, Pos.unknown⟩

/-- Stores an item into a variable.  Where there is nothing to store, the initial value is in place
already. -/
def store (name : String) : Item → Except Error (List Instr)
  | .absent => .ok []
  | .int value => .ok [.loadLit (.var 1) value, .storeVar name (.var 0) (.var 1)]
  | .str _ => .error ⟨.stringStore name, Pos.unknown⟩
  | .ident source => .ok [.loadVar source (.var 1), .storeVar name (.var 0) (.var 1)]
  | .temp id => .ok [.storeVar name (.var 0) (.temp id)]
  | .foreign text => .error ⟨.foreignItem text name, Pos.unknown⟩

/-! ## Declarations -/

/-- Puts a literal into the slot of a variable.  The type that counts is the slot's, or for a
variable without slot the declaration's. -/
def fold (slots : Table Slot) (name : String) (declared literal : DataType) (text : String) :
    Except Error (Table Slot) :=
  let type := ((slots.get? name).map Slot.type).getD declared
  if type = literal then .ok (slots.set name ⟨type, text⟩)
  else .error ⟨.initialiserType literal type name, Pos.unknown⟩

/-- The instructions of a declaration, and the state after it. -/
def lowerDeclaration (st : State) (name : String) (type : DataType) (value : Item) :
    State × Except Error (List Instr) :=
  let first := !st.declared.contains name
  let after := { st with declared := if first then st.declared ++ [name] else st.declared }
  match first, value.literalType? with
  | true, some literal =>
    match fold st.slots name type literal value.text with
    | .ok slots => ({ after with slots }, .ok [])
    | .error e => (after, .error e)
  | _, _ => (after, store name value)

/-! ## Calls and operations -/

/-- The instructions of a call. -/
def lowerCall (o : Options) (name : String) : List Item → Except Error (List Instr)
  | [arg] => (load arg (.param 0)).map (fun instr => [instr, .call (o.resolve name)])
  | args => .error ⟨.callArgumentCount name args.length, Pos.unknown⟩

/-- The register that holds an operand, where `next` is the first free one for variables; the
instructions that bring the operand there; and the first register that is free after it. -/
def lowerOperand (next : Int) : Item → Except Error (Register × List Instr × Int)
  | .temp id => .ok (.temp id, [], next)
  | item => (load item (.var next)).map (fun instr => (.var next, [instr], next + 1))

/-- The instructions of an operation. -/
def lowerBinary (op : Operator) (left right : Item) (temp : Int) : Except Error (List Instr) :=
  match op with
  | .foreign text => .error ⟨.foreignOperation text, Pos.unknown⟩
  | .arith _ => do
    let (leftReg, leftCode, next) ← lowerOperand 0 left
    let (rightReg, rightCode, _) ← lowerOperand next right
    return leftCode ++ rightCode ++ [.binary op (.temp temp) leftReg rightReg]

/-! ## Programs -/

/-- The register instructions of a tuple instruction, and the state after it. -/
def lowerInstr (o : Options) (st : State) : Tuple.Instr → State × Except Failure (List Instr)
  | .declare name type value =>
    let (st, result) := lowerDeclaration st name type value
    (st, result.mapError .rejected)
  | .assign name value => (st, (store name value).mapError .rejected)
  | .call name args => (st, (lowerCall o name args).mapError .rejected)
  | .binary op left right temp => (st, (lowerBinary op left right temp).mapError .rejected)
  | .foreign _ => (st, .error (.defect .foreignTuple))

/-- The register instructions of tuple instructions, in order, up to the first failure; and the
state that is then reached. -/
def lowerAll (o : Options) (st : State) :
    List Tuple.Instr → State × Except Failure (List Instr)
  | [] => (st, .ok [])
  | instr :: instrs =>
    match lowerInstr o st instr with
    | (st, .error e) => (st, .error e)
    | (st, .ok code) =>
      let (last, result) := lowerAll o st instrs
      (last, result.map (code ++ ·))

/-- The state in which a program's instructions are begun: every variable has a slot with the
initial value of its type. -/
def State.ofVars (vars : Table DataType) : Except Error State :=
  (vars.mapM (fun type => (defaultValue type).map (Slot.mk type))).map (fun slots => { slots })

/-- The register program of a tuple program, and the state that is reached.  If a variable's
type has no initial value, nothing is begun and the state stays `st`. -/
def build (o : Options) (st : State) (p : Tuple.Program) : State × Except Failure Program :=
  match State.ofVars p.vars with
  | .error e => (st, .error (.rejected e))
  | .ok st =>
    let (last, result) := lowerAll o st p.instrs
    (last, result.map (fun instrs => ⟨instrs, last.slots⟩))

/-- The register program of a tuple program. -/
def Program.ofTuple (o : Options) (p : Tuple.Program) : Except Failure Program :=
  (build o {} p).2

end Lower
end Risclet
