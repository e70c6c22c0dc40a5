import Risclet.Assembly.Build
import Risclet.Lower.Build
import Risclet.Node.Parse
import Risclet.Token.Scan
import Risclet.Tuple.Build

/-! # Compiling source text

The stages one after the other: source text to tokens, to statements, to tuple instructions, to
register instructions, to assembler text.  The first stage that fails ends the compilation.

Texts with halves of surrogate pairs go through the same stages, with characters that stand for the
halves; only the last stage sees a difference.
-/
namespace Risclet

/-- The outcome of the stages behind the parser. -/
structure Generation where
  tuple : Tuple.Program
  lower : Lower.Program
  assembly : String

/-- Compiles statements. -/
def generate (o : Options) (statements : List Node) : Except Failure Generation := do
  let tuple ← (Tuple.Program.ofStatements o statements).mapError Failure.rejected
  let lower ← Lower.Program.ofTuple o tuple
  let assembly ← Assembly.emit o lower
  return ⟨tuple, lower, assembly⟩

/-- The outcome of all stages. -/
structure Compilation extends Generation where
  tokens : List Token
  statements : List Node

/-- The statements of a source text. -/
def parseSource (source : String) : Except Failure (List Node) := do
  let tokens ← tokenize source
  Node.parse tokens

/-- Compiles a source text. -/
def compile (o : Options) (source : String) : Except Failure Compilation := do
  let tokens ← tokenize source
  let statements ← Node.parse tokens
  let generation ← generate o statements
  return { generation with tokens, statements }

/-! ## Texts with halves of surrogate pairs -/

/-- Compiles statements with characters that stand for halves. -/
def generateIn (h : Text.Halves) (o : Options) (statements : List Node) :
    Except TextFailure Generation := do
  let tuple ← (Tuple.Program.ofStatements o statements).mapError (.failure ∘ .rejected)
  let lower ← (Lower.Program.ofTuple o tuple).mapError TextFailure.failure
  let assembly ← Assembly.emitIn h o lower
  return ⟨tuple, lower, assembly⟩

/-- Compiles a source text with characters that stand for halves. -/
def compileIn (h : Text.Halves) (o : Options) (source : String) :
    Except TextFailure Compilation := do
  let tokens ← (tokenize source).mapError TextFailure.failure
  let statements ← (Node.parse tokens).mapError TextFailure.failure
  let generation ← generateIn h o statements
  return { generation with tokens, statements }

end Risclet
