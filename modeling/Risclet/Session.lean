import Risclet.Compile

/-! # Sessions

A generator that is kept in use remembers the last tuple program and the last register program
it made, so that they can be listed or worked on further.  A stage that fails leaves what it would
have made as it was; a request to run all stages forgets both before it begins.
-/
namespace Risclet

/-- What a generator remembers. -/
structure Session where
  tuple : Option Tuple.Program := none
  lower : Option Lower.Program := none

namespace Session

variable (s : Session) (o : Options)

/-! ## Stages -/

/-- Makes the tuple program of some statements. -/
def buildTuple (statements : List Node) : Session × Except Failure Tuple.Program :=
  match Tuple.Program.ofStatements o statements with
  | .ok tuple => ({ s with tuple := some tuple }, .ok tuple)
  | .error e => (s, .error (.rejected e))

/-- Makes the register program of a tuple program. -/
def buildLower (tuple : Tuple.Program) : Session × Except Failure Lower.Program :=
  match Lower.Program.ofTuple o tuple with
  | .ok lower => ({ s with lower := some lower }, .ok lower)
  | .error e => (s, .error e)

/-- Runs all stages on some statements, with nothing remembered from before. -/
def generateAll (o : Options) (statements : List Node) : Session × Except Failure String :=
  match buildTuple {} o statements with
  | (s, .error e) => (s, .error e)
  | (s, .ok tuple) =>
    match s.buildLower o tuple with
    | (s, .error e) => (s, .error e)
    | (s, .ok lower) => (s, Assembly.emit o lower)

/-! ## Requests -/

/-- What a generator can be asked for. -/
inductive Request where
  /-- The assembler text of some statements, through all stages. -/
  | generate (statements : List Node)
  /-- The tuple program of some statements. -/
  | tuple (statements : List Node)
  /-- The register program of a tuple program. -/
  | lower (program : Tuple.Program)
  /-- The assembler text of a register program. -/
  | emit (program : Lower.Program)
  /-- The register program of the remembered tuple program. -/
  | lowerStored
  /-- The assembler text of the remembered register program. -/
  | emitStored

/-- Answers a request with a listing or an assembler text; with nothing, if what the request is
about is not remembered. -/
def answer : Request → Session × Except Failure (Option String)
  | .generate statements =>
    let (s, result) := generateAll o statements
    (s, result.map some)
  | .tuple statements =>
    let (s, result) := s.buildTuple o statements
    (s, result.map (fun p => some p.listing))
  | .lower program =>
    let (s, result) := s.buildLower o program
    (s, result.map (fun p => some p.listing))
  | .emit program => (s, (Assembly.emit o program).map some)
  | .lowerStored =>
    match s.tuple with
    | none => (s, .ok none)
    | some program =>
      let (s, result) := s.buildLower o program
      (s, result.map (fun p => some p.listing))
  | .emitStored =>
    match s.lower with
    | none => (s, .ok none)
    | some program => (s, (Assembly.emit o program).map some)

end Session
end Risclet
