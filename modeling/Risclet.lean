import Risclet.Assembly
import Risclet.Assembly.Build
import Risclet.Assembly.Data
import Risclet.CommandLine
import Risclet.CommandLine.Run
import Risclet.Compile
import Risclet.DataType
import Risclet.Error
import Risclet.FileTree
import Risclet.Host
import Risclet.Item
import Risclet.Job
import Risclet.Lower
import Risclet.Lower.Build
import Risclet.Lower.Session
import Risclet.Main
import Risclet.Node
import Risclet.Node.Parse
import Risclet.Node.Print
import Risclet.Operator
import Risclet.Options
import Risclet.Path
import Risclet.Pos
import Risclet.Proofs.Assembly.Arguments
import Risclet.Proofs.Assembly.Branches
import Risclet.Proofs.Assembly.Code
import Risclet.Proofs.Assembly.Decoder
import Risclet.Proofs.Assembly.Footprint
import Risclet.Proofs.Assembly.Halves
import Risclet.Proofs.Assembly.Layout
import Risclet.Proofs.Assembly.Listing
import Risclet.Proofs.Assembly.Machine
import Risclet.Proofs.Assembly.Placement
import Risclet.Proofs.Assembly.Reader
import Risclet.Proofs.Assembly.Simulation
import Risclet.Proofs.Assembly.Symbols
import Risclet.Proofs.Atomicity
import Risclet.Proofs.Calls
import Risclet.Proofs.CommandLine
import Risclet.Proofs.Diagnostics
import Risclet.Proofs.Extension
import Risclet.Proofs.FileTree
import Risclet.Proofs.Job
import Risclet.Proofs.LineEnds
import Risclet.Proofs.Literals
import Risclet.Proofs.Lower.Accesses
import Risclet.Proofs.Lower.DataTable
import Risclet.Proofs.Lower.Discipline
import Risclet.Proofs.Lower.Machine
import Risclet.Proofs.Lower.Permissive
import Risclet.Proofs.Lower.Preservation
import Risclet.Proofs.Lower.Progress
import Risclet.Proofs.Lower.Rules
import Risclet.Proofs.Lower.Simulation
import Risclet.Proofs.Lower.Slots
import Risclet.Proofs.Meaning
import Risclet.Proofs.Node.Compose
import Risclet.Proofs.Node.Grammar
import Risclet.Proofs.Node.Hoist
import Risclet.Proofs.Node.Integers
import Risclet.Proofs.Node.Lexemes
import Risclet.Proofs.Node.Origin
import Risclet.Proofs.Node.Parse
import Risclet.Proofs.Node.Parts
import Risclet.Proofs.Node.Terminator
import Risclet.Proofs.Outcome
import Risclet.Proofs.Pos
import Risclet.Proofs.Relocation
import Risclet.Proofs.Session
import Risclet.Proofs.Strictness
import Risclet.Proofs.Table
import Risclet.Proofs.Text.Codec
import Risclet.Proofs.Text.Halves
import Risclet.Proofs.Text.Lines
import Risclet.Proofs.Text.Numeral
import Risclet.Proofs.Text.Quoted
import Risclet.Proofs.Token.Lines
import Risclet.Proofs.Token.Partition
import Risclet.Proofs.Token.Pieces
import Risclet.Proofs.Token.Places
import Risclet.Proofs.Token.Printing
import Risclet.Proofs.Tuple.Accesses
import Risclet.Proofs.Tuple.Declarations
import Risclet.Proofs.Tuple.Discipline
import Risclet.Proofs.Tuple.Groups
import Risclet.Proofs.Tuple.Lawful
import Risclet.Proofs.Tuple.Meaning
import Risclet.Proofs.Tuple.Preservation
import Risclet.Proofs.Tuple.Rules
import Risclet.Proofs.Tuple.Scope
import Risclet.Register
import Risclet.Session
import Risclet.Table
import Risclet.Text.Blank
import Risclet.Text.Digit
import Risclet.Text.Display
import Risclet.Text.Halves
import Risclet.Text.Lines
import Risclet.Text.Numeral
import Risclet.Text.Printable
import Risclet.Text.Quoted
import Risclet.Text.Ranges
import Risclet.Text.Uppercase
import Risclet.Text.Utf8
import Risclet.Text.Word
import Risclet.Token
import Risclet.Token.Scan
import Risclet.Tuple
import Risclet.Tuple.Build
import Risclet.Tuple.Session
