import Risclet.CommandLine

/-! # Runs of the compiler

A run is given its arguments and ends with a status: zero if all is well, one if the program is
rejected, a file cannot be read or written or the system refuses something else, two if the
arguments are wrong, a stage was given what it cannot treat or a text has no encoding.
-/
namespace Risclet
namespace CommandLine

/-! ## Texts -/

/-- How the compiler is called. -/
def programTitle : String := "riscletc.py"

/-- The usage text. -/
def usageText : String :=
  Text.unlines [
    "usage: " ++ programTitle ++ " [-h] [-o OUTPUT] [--emit-tokens] [--emit-ast]",
    "                   [--emit-tuple-ir] [--emit-lower-ir] [--permissive]",
    "                   [--program-name PROGRAM_NAME]",
    "                   source"]

/-- The help text. -/
def helpText : String :=
  usageText ++ Text.unlines [
    "",
    "RISClet Compiler (AArch64)",
    "",
    "positional arguments:",
    "  source                Source file",
    "",
    "options:",
    "  -h, --help            show this help message and exit",
    "  -o OUTPUT, --output OUTPUT",
    "                        Output file (default: source with .s)",
    "  --emit-tokens         Print tokens to stdout",
    "  --emit-ast            Print AST to stdout",
    "  --emit-tuple-ir       Print tuple IR to stdout",
    "  --emit-lower-ir       Print lower IR to stdout",
    "  --permissive          Allow use of undeclared variables",
    "  --program-name PROGRAM_NAME",
    "                        Name shown in the assembly header (default: output",
    "                        file name)",
    "",
    "Examples:",
    "  " ++ programTitle ++ " prog.risclet                  Compile to prog.s",
    "  " ++ programTitle ++ " prog.risclet -o out.s         Compile to out.s",
    "  " ++ programTitle ++ " prog.risclet --emit-tuple-ir  Print tuple IR",
    "  " ++ programTitle ++ " prog.risclet --emit-lower-ir  Print lower IR",
    "        "]

/-! ## Runs -/

/-- How a run ends and what it prints. -/
structure Result where
  status : Nat
  out : String
  err : String
deriving DecidableEq, Repr

/-- An optional text, where an empty one counts as none. -/
def given (text : Option String) (default : String) : String :=
  match text with
  | none => default
  | some s => if s = "" then default else s

/-- The job that settings ask for. -/
def Settings.job (s : Settings) : Job :=
  let source := s.source.getD ""
  let output := given s.output (Path.defaultOutput source)
  let programName := given s.programName (Path.baseName output)
  { source, output, emit := s.emit, options := { strict := !s.permissive, programName } }

/-- The result of a run that the arguments stop. -/
def Stop.result : Stop → Result
  | .help => ⟨0, helpText, ""⟩
  | .error e => ⟨2, "", usageText ++ programTitle ++ ": error: " ++ e.message ++ "\n"⟩

/-- The status and the message for what went wrong with a job on `source`. -/
def jobMessage (source : String) : JobError → Nat × String
  | .failure (.rejected e) => (1, e.report.located (some source))
  | .failure (.defect d) => (2, "Internal compiler error: " ++ d.message)
  | .file e =>
    if e.fault = .embeddedNull then (2, "Internal compiler error: " ++ e.message)
    else (1, "Error: " ++ e.message)
  | .encoding f => (2, "Internal compiler error: " ++ f.message)

/-- The status and the message for a refusal by the host. -/
def refusalMessage : Refusal → Nat × String
  | .system f => (1, "Error: [Errno " ++ toString f.code ++ "] " ++ f.words)
  | .codec words => (2, "Internal compiler error: " ++ words)

/-- The status and the message for what kept a job on `source` from its end. -/
def troubleMessage (source : String) : Trouble → Nat × String
  | .job e => jobMessage source e
  | .refused r => refusalMessage r

/-- The result of a run, given what its job on `source` printed and what went wrong.  Behind the
message that comes with status two, the places in the compiler are printed that led to it; they are
left out here. -/
def result (source printed : String) : Option Trouble → Result
  | none => ⟨0, printed, ""⟩
  | some e =>
    let (status, message) := troubleMessage source e
    ⟨status, printed, message ++ "\n"⟩

/-- Runs the compiler on a host and a file tree. -/
def runOn (host : Host) (t : FileTree) (arguments : List String) : FileTree × Result :=
  match settings host.keepsDashes arguments with
  | .error stop => (t, stop.result)
  | .ok s =>
    let job := s.job
    let (t, printed, trouble?) := job.runOn host t
    (t, result job.source printed trouble?)

/-- Runs the compiler on a file tree and the host that refuses nothing. -/
def run (t : FileTree) (arguments : List String) : FileTree × Result :=
  runOn {} t arguments

end CommandLine
end Risclet
