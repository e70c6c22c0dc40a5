import Risclet.CommandLine.Run

/-! # The compiler as a program

Reads the source, prints and writes as `Job.plan` says, and ends with the status of the run.
-/
namespace Risclet

/-- The number of an error of the system; some calls report it as a negative number. -/
def systemCode (code : UInt32) : Nat :=
  if code.toNat < 2147483648 then code.toNat else 4294967296 - code.toNat

/-- The number and the words of an error of the system. -/
def systemError : IO.Error → Nat × String
  | .alreadyExists _ code words | .interrupted _ code words | .noFileOrDirectory _ code words
  | .invalidArgument _ code words | .permissionDenied _ code words
  | .resourceExhausted _ code words | .inappropriateType _ code words
  | .noSuchThing _ code words | .otherError code words | .resourceBusy code words
  | .resourceVanished code words | .unsupportedOperation code words | .hardwareFault code words
  | .unsatisfiedConstraints code words | .illegalOperation code words
  | .protocolError code words | .timeExpired code words => (systemCode code, words)
  | .unexpectedEof => (5, "Input/output error")
  | .userError words => (5, words)

/-- The fault that an error of the system is. -/
def FileFault.ofSystem (e : IO.Error) : FileFault :=
  let (code, words) := systemError e
  let known := [FileFault.missing, .notDirectory, .isDirectory, .nameTooLong]
  match known.find? (fun fault => fault.code?.map Prod.fst == some code) with
  | some fault => fault
  | none => .other code words

/-- Reads or opens at a path; an error of the system becomes a refusal of the path. -/
def attempt {α : Type} (path : String) (action : IO α) : IO (Except Trouble α) := do
  try
    return .ok (← action)
  catch e =>
    return .error (.job (.file ⟨.ofSystem e, path⟩))

/-- Prints or stores; an error of the system becomes its refusal. -/
def refusal? (action : IO Unit) : IO (Option Trouble) := do
  try
    action
    return none
  catch e =>
    let (code, words) := systemError e
    return some (.refused (.system ⟨code, words⟩))

/-- Prints texts up to the first that is refused. -/
def printAll : List String → IO (Option Trouble)
  | [] => return none
  | text :: more => do
    match ← refusal? ((← IO.getStdout).putStr text) with
    | some trouble => return some trouble
    | none => printAll more

/-- Carries out the ending of a plan: what went wrong. -/
def carryOut : Ending → IO (Option Trouble)
  | .failed e => return some e
  | .shown => return none
  | .write path text farewell => do
    match ← attempt path (IO.FS.Handle.mk path .write) with
    | .error e => return some e
    | .ok file =>
      match ← refusal? (do file.write text.toUTF8; file.flush) with
      | some trouble => return some trouble
      | none => printAll [farewell]

/-- Runs the compiler on the files of the system.  What a job prints is printed on the way, so that
the result holds only what is left to be said. -/
def runOnSystem (arguments : List String) : IO CommandLine.Result := do
  match CommandLine.settings false arguments with
  | .error stop => return stop.result
  | .ok s =>
    let job := s.job
    let bytes ← attempt job.source (IO.FS.readBinFile job.source)
    let plan := job.plan bytes
    let trouble? ← match ← printAll plan.printed with
      | some trouble => pure (some trouble)
      | none => carryOut plan.ending
    return CommandLine.result job.source "" trouble?

end Risclet

/-- The program: its arguments, what it prints, and its status. -/
def main (arguments : List String) : IO UInt32 := do
  let r ← Risclet.runOnSystem arguments
  (← IO.getStdout).putStr r.out
  (← IO.getStderr).putStr r.err
  return UInt32.ofNat r.status
