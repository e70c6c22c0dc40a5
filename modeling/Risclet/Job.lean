import Risclet.Compile
import Risclet.Host
import Risclet.Node.Print
import Risclet.Path
import Risclet.Text.Utf8

/-! # Compiling a file

A job compiles one source file and writes the assembler text to another, telling on the way what
it is doing; or it shows what one of the stages makes and writes nothing.  If more than one
stage is asked for, the earliest is shown.

What a job does depends on files only through the bytes of the source.  `Job.plan` is given
these, or the reason why there are none, and says what is printed, what is written and how it
ends.  `Job.runOn` carries the plan out on a host and a file tree.  The output is opened after
everything has been compiled, but from then on a job can still be refused: while the text is
stored, and when the last line is printed.
-/
namespace Risclet

/-- The stages that are to be shown. -/
structure Emit where
  tokens : Bool := false
  tree : Bool := false
  tuple : Bool := false
  lower : Bool := false
deriving DecidableEq, Repr

/-- Whether anything is to be shown. -/
def Emit.any (e : Emit) : Bool :=
  e.tokens || e.tree || e.tuple || e.lower

/-- Why a job is not done. -/
inductive JobError where
  /-- A stage failed. -/
  | failure (f : Failure)
  /-- The source cannot be read or the output not be written. -/
  | file (e : FileError)
  /-- The source is no text. -/
  | encoding (f : Text.Utf8.Fault)
deriving DecidableEq, Repr

/-- What keeps a job from its end. -/
inductive Trouble where
  | job (e : JobError)
  /-- The host refuses something besides the reading or opening of a file. -/
  | refused (r : Refusal)
deriving DecidableEq, Repr

/-- What went wrong, unless it is a refusal. -/
def Trouble.jobError? : Trouble → Option JobError
  | job e => some e
  | refused _ => none

/-- One file to compile. -/
structure Job where
  source : String
  output : String
  emit : Emit := {}
  options : Options := {}

/-- How a job ends. -/
inductive Ending where
  /-- Something went wrong. -/
  | failed (e : Trouble)
  /-- A stage was shown. -/
  | shown
  /-- `text` is written to the file at `path`; if that succeeds, `farewell` is printed. -/
  | write (path text farewell : String)
deriving DecidableEq, Repr

/-- What a job does, given its source. -/
structure Plan where
  /-- The texts that are printed before the ending, one after the other. -/
  printed : List String
  ending : Ending
deriving DecidableEq, Repr

namespace Plan

/-- The plan that prints some texts first. -/
def after (printed : List String) (p : Plan) : Plan :=
  { p with printed := printed ++ p.printed }

/-- The plan that goes on with the outcome of a stage, or ends with its failure. -/
def andThen {α : Type} (outcome : Except Failure α) (next : α → Plan) : Plan :=
  match outcome with
  | .ok a => next a
  | .error f => ⟨[], .failed (.job (.failure f))⟩

end Plan

namespace Job

/-- A line that tells what is being done; where a stage is to be shown, there are none. -/
def progress (job : Job) (line : String) : List String :=
  if job.emit.any then [] else [line ++ "\n"]

/-- The plan for the text of the source, its lines ended by line feeds. -/
def planText (job : Job) (text : String) : Plan :=
  .after (job.progress ("Parsing " ++ job.source ++ "...")) <|
  .andThen (tokenize text) fun tokens =>
  if job.emit.tokens then ⟨[Token.listing tokens ++ "\n"], .shown⟩ else
  .andThen (Node.parse tokens) fun statements =>
  if job.emit.tree then ⟨(Node.printedLines statements 0).map (· ++ "\n"), .shown⟩ else
  .after (job.progress "Building tuple IR...") <|
  .andThen ((Tuple.Program.ofStatements job.options statements).mapError .rejected) fun tuple =>
  if job.emit.tuple then ⟨[tuple.listing], .shown⟩ else
  .after (job.progress "Lowering to register IR...") <|
  .andThen (Lower.Program.ofTuple job.options tuple) fun lower =>
  if job.emit.lower then ⟨[lower.listing], .shown⟩ else
  .after ["Generating AArch64 assembly...\n"] <|
  .andThen (Assembly.emit job.options lower) fun assembly =>
  ⟨[], .write job.output assembly ("Successfully compiled to " ++ job.output ++ "\n")⟩

/-- The plan for the bytes of the source, or for the reason why it cannot be read. -/
def plan (job : Job) (read : Except Trouble ByteArray) : Plan :=
  match read with
  | .error e => ⟨[], .failed e⟩
  | .ok bytes =>
    match Text.Utf8.decode bytes with
    | .error f => ⟨[], .failed (.job (.encoding f))⟩
    | .ok text => job.planText (Text.normaliseLines text)

end Job

/-! ## Jobs on hosts -/

namespace Host

/-- What comes of a path that the host does not open.  The system names the path; a path without
encoding does not get to it. -/
def denial (path : String) : Refusal → Trouble
  | .system f => .job (.file ⟨.other f.code f.words, path⟩)
  | r => .refused r

/-- Reads a file on a host. -/
def read (host : Host) (t : FileTree) (path : String) : Except Trouble ByteArray :=
  match host.denies .reading path with
  | some r => .error (denial path r)
  | none => (t.read path).mapError (.job ∘ .file)

/-- Opens a file for writing on a host. -/
def create (host : Host) (t : FileTree) (path : String) :
    Except Trouble (List String × FileTree) :=
  match host.denies .writing path with
  | some r => .error (denial path r)
  | none => (t.create path).mapError (.job ∘ .file)

/-- Writes a text to the file at a path, and prints the farewell behind `out`: the tree after it,
all that is printed, and what went wrong. -/
def write (host : Host) (t : FileTree) (out path text farewell : String) :
    FileTree × String × Option Trouble :=
  match host.create t path with
  | .error e => (t, out, some e)
  | .ok (names, t) =>
    match host.store t names text with
    | (t, some r) => (t, out, some (.refused r))
    | (t, none) =>
      let (out, r?) := host.print out [farewell]
      (t, out, r?.map .refused)

end Host

namespace Job

/-- Carries a job out on a host and a file tree: the tree after it, what is printed, and what went
wrong. -/
def runOn (host : Host) (job : Job) (t : FileTree) : FileTree × String × Option Trouble :=
  let plan := job.plan (host.read t job.source)
  match host.print "" plan.printed with
  | (out, some r) => (t, out, some (.refused r))
  | (out, none) =>
    match plan.ending with
    | .failed e => (t, out, some e)
    | .shown => (t, out, none)
    | .write path text farewell => host.write t out path text farewell

/-- Carries a job out on a file tree and the host that refuses nothing. -/
def run (job : Job) (t : FileTree) : FileTree × String × Option JobError :=
  let (t, out, trouble?) := job.runOn {} t
  (t, out, trouble?.bind Trouble.jobError?)

end Job
end Risclet
