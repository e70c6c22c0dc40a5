import Risclet.Job
import Risclet.Text.Digit

/-! # The command line

Arguments are first told apart, then taken in order:

* an argument that begins with a dash is an option, by its name or by an abbreviation that fits
  no other; a value may be attached with an equals sign, and to a short option directly;
* a dash alone, a negative number, and an unknown option with a space in it are plain arguments;
* after two dashes every argument is plain.

The first plain argument is the source.  What is attached to a short option without value is read
as further short options.  Two dashes attached to an option with a value are that value on some
hosts, and on others take back what it was given before.  What is left over is an error, but only
after everything else is in order.
-/
namespace Risclet
namespace CommandLine

/-! ## Options -/

/-- The options. -/
inductive Opt where
  | help
  | output
  | emitTokens
  | emitTree
  | emitTuple
  | emitLower
  | permissive
  | programName
deriving DecidableEq, Repr

namespace Opt

/-- Every option, in the order of the usage text. -/
def all : List Opt :=
  [help, output, emitTokens, emitTree, emitTuple, emitLower, permissive, programName]

/-- The ways to write an option, a short one first. -/
def names : Opt → List String
  | help => ["-h", "--help"]
  | output => ["-o", "--output"]
  | emitTokens => ["--emit-tokens"]
  | emitTree => ["--emit-ast"]
  | emitTuple => ["--emit-tuple-ir"]
  | emitLower => ["--emit-lower-ir"]
  | permissive => ["--permissive"]
  | programName => ["--program-name"]

/-- Whether an option has a value. -/
def takesValue : Opt → Bool
  | output | programName => true
  | _ => false

/-- An option in error messages. -/
def title (o : Opt) : String :=
  "/".intercalate o.names

/-- Every way to write an option, with the option. -/
def table : List (String × Opt) :=
  all.flatMap (fun o => o.names.map (·, o))

/-- The option that is written in a given way. -/
def ofName? (name : String) : Option Opt :=
  table.lookup name

/-- Whether the name of an option is a short one: a dash and a letter. -/
def isShort (name : List Char) : Bool :=
  name.length == 2

end Opt

/-! ## Errors -/

/-- What can be wrong with the arguments. -/
inductive UsageError where
  /-- An abbreviation fits several options. -/
  | ambiguous (written : String) (names : List String)
  | expectedValue (o : Opt)
  | ignoredValue (o : Opt) (value : String)
  | missingSource
  | unrecognized (arguments : List String)
deriving DecidableEq, Repr

/-- The wording of an error. -/
def UsageError.message : UsageError → String
  | ambiguous written names =>
    "ambiguous option: " ++ written ++ " could match " ++ ", ".intercalate names
  | expectedValue o => "argument " ++ o.title ++ ": expected one argument"
  | ignoredValue o value =>
    "argument " ++ o.title ++ ": ignored explicit argument " ++ Text.display value
  | missingSource => "the following arguments are required: source"
  | unrecognized arguments => "unrecognized arguments: " ++ " ".intercalate arguments

/-! ## Telling arguments apart -/

/-- What an argument is. -/
inductive Word where
  /-- A plain argument. -/
  | plain (text : String)
  /-- An option; `short` says whether it is written with one dash, and `attached` is what stands
  in the same argument after it. -/
  | option (o : Opt) (short : Bool) (attached : Option String)
  /-- Written like an option, but there is none such. -/
  | unknown (text : String)
  /-- Two dashes. -/
  | separator
deriving DecidableEq, Repr

/-- Whether an argument is written like a negative number: digits after the dash, with or without a
point before the last of them.  A line feed at the end is passed over. -/
def isNegativeNumber (cs : List Char) : Bool :=
  let cs := if cs.getLast? = some '\n' then cs.dropLast else cs
  match cs with
  | '-' :: rest =>
    match rest.dropWhile Text.isDigit with
    | [] => !rest.isEmpty
    | '.' :: fraction => !fraction.isEmpty && fraction.all Text.isDigit
    | _ => false
  | _ => false

/-- Cuts an argument at its first equals sign. -/
def cutEquals (cs : List Char) : List Char × Option String :=
  match cs.dropWhile (· != '=') with
  | [] => (cs, none)
  | _ :: value => (cs.takeWhile (· != '='), some (String.ofList value))

/-- The options that a long option may stand for, with their full names. -/
def completions (written : List Char) : List (String × Opt) :=
  Opt.table.filter (fun entry => written.isPrefixOf entry.1.toList)

/-- Tells what an argument is that begins with a dash, has something after it, and is no option's
name. -/
def classifyDashed (text : String) : Except UsageError Word :=
  let cs := text.toList
  let (name, attached) := cutEquals cs
  let exact := if attached.isNone then none else Opt.ofName? (String.ofList name)
  match exact with
  | some o => .ok (.option o (Opt.isShort name) attached)
  | none =>
    let found : List (String × Word) :=
      if cs.take 2 = ['-', '-'] then
        (completions name).map (fun entry => (entry.1, .option entry.2 false attached))
      else
        let short := String.ofList (cs.take 2)
        match Opt.ofName? short with
        | some o => [(short, .option o true (some (String.ofList (cs.drop 2))))]
        | none => []
    match found with
    | [(_, word)] => .ok word
    | [] =>
      if isNegativeNumber cs || cs.contains ' ' then .ok (.plain text) else .ok (.unknown text)
    | several => .error (.ambiguous text (several.map Prod.fst))

/-- Tells what an argument is. -/
def classify (text : String) : Except UsageError Word :=
  match text.toList with
  | [] => .ok (.plain text)
  | first :: rest =>
    if first ≠ '-' then .ok (.plain text)
    else
      match Opt.ofName? text with
      | some o => .ok (.option o (Opt.isShort text.toList) none)
      | none => if rest.isEmpty then .ok (.plain text) else classifyDashed text

/-- Tells the arguments apart, in order. -/
def words : List String → Except UsageError (List Word)
  | [] => .ok []
  | text :: texts =>
    if text = "--" then .ok (.separator :: texts.map .plain)
    else do
      let word ← classify text
      let rest ← words texts
      return word :: rest

/-! ## Taking arguments -/

/-- What the arguments have asked for so far. -/
structure Settings where
  source : Option String := none
  output : Option String := none
  emit : Emit := {}
  permissive : Bool := false
  programName : Option String := none
  /-- Arguments that nothing has taken. -/
  extras : List String := []
deriving DecidableEq, Repr

/-- Why the arguments are not taken to the end. -/
inductive Stop where
  /-- Help is asked for. -/
  | help
  | error (e : UsageError)
deriving DecidableEq, Repr

/-- One option with its value, if it has one, as it is carried out. -/
abbrev Action := Opt × Option String

/-- Carries out an option. -/
def Settings.apply (s : Settings) : Action → Except Stop Settings
  | (.help, _) => .error .help
  | (.output, value) => .ok { s with output := value }
  | (.emitTokens, _) => .ok { s with emit := { s.emit with tokens := true } }
  | (.emitTree, _) => .ok { s with emit := { s.emit with tree := true } }
  | (.emitTuple, _) => .ok { s with emit := { s.emit with tuple := true } }
  | (.emitLower, _) => .ok { s with emit := { s.emit with lower := true } }
  | (.permissive, _) => .ok { s with permissive := true }
  | (.programName, value) => .ok { s with programName := value }

/-- Carries out options in order. -/
def Settings.applyAll (s : Settings) : List Action → Except Stop Settings
  | [] => .ok s
  | action :: actions => do
    let s ← s.apply action
    s.applyAll actions

/-- Takes a plain argument: the first is the source. -/
def Settings.takePlain (s : Settings) (text : String) : Settings :=
  match s.source with
  | none => { s with source := some text }
  | some _ => { s with extras := s.extras ++ [text] }

/-- What one argument with options comes to. -/
structure Packed where
  actions : List Action
  /-- Whether the last option takes the next argument for its value. -/
  takesNext : Bool

/-- An option with nothing attached, where `next` is the plain argument after it, if there is
one. -/
def bare (o : Opt) (next : Option String) : Except UsageError Packed :=
  if o.takesValue then
    match next with
    | some value => .ok ⟨[(o, some value)], true⟩
    | none => .error (.expectedValue o)
  else .ok ⟨[(o, none)], false⟩

section Attached
variable (keepsDashes : Bool)

/-- The value that an attached text is: two dashes are none, unless they are kept. -/
def attachedValue (text : String) : Option String :=
  if text = "--" ∧ keepsDashes = false then none else some text

/-- An option with `text` attached.  If it is a short one that takes no value, the first character
is a further short option, and the others are attached to that. -/
def unpack (next : Option String) (o : Opt) (short : Bool) (text : List Char) :
    Except UsageError Packed :=
  if o.takesValue then .ok ⟨[(o, attachedValue keepsDashes (String.ofList text))], false⟩
  else
    match text with
    | [] => .error (.ignoredValue o "")
    | c :: rest =>
      match if short then Opt.ofName? (String.ofList ['-', c]) else none with
      | none => .error (.ignoredValue o (String.ofList (c :: rest)))
      | some inner => do
        let packed ← if rest.isEmpty then bare inner next else unpack next inner true rest
        return { packed with actions := (o, none) :: packed.actions }

/-- The options of one argument. -/
def packed (next : Option String) (o : Opt) (short : Bool) :
    Option String → Except UsageError Packed
  | none => bare o next
  | some text => unpack keepsDashes next o short text.toList

end Attached

/-- The plain argument at the head of some words. -/
def nextPlain : List Word → Option String
  | .plain text :: _ => some text
  | _ => none

/-- Takes the arguments in order.  Two dashes are dropped if the source stands next to them, and are
left over otherwise. -/
def Settings.take (keepsDashes : Bool) (s : Settings) : List Word → Except Stop Settings
  | [] => .ok s
  | .plain text :: .separator :: rest =>
    if s.source.isNone then (s.takePlain text).take keepsDashes rest
    else ({ s with extras := s.extras ++ [text, "--"] } : Settings).take keepsDashes rest
  | .plain text :: rest => (s.takePlain text).take keepsDashes rest
  | .separator :: rest =>
    if s.source.isNone then s.take keepsDashes rest
    else ({ s with extras := s.extras ++ ["--"] } : Settings).take keepsDashes rest
  | .unknown text :: rest =>
    ({ s with extras := s.extras ++ [text] } : Settings).take keepsDashes rest
  | .option o short attached :: rest =>
    match packed keepsDashes (nextPlain rest) o short attached with
    | .error e => .error (.error e)
    | .ok p =>
      match s.applyAll p.actions with
      | .error stop => .error stop
      | .ok s => if p.takesNext then s.take keepsDashes rest.tail else s.take keepsDashes rest
termination_by words => words.length

/-- What the arguments ask for; `keepsDashes` says whether two dashes that are attached to an option
are its value. -/
def settings (keepsDashes : Bool) (arguments : List String) : Except Stop Settings :=
  match words arguments with
  | .error e => .error (.error e)
  | .ok words =>
    match ({} : Settings).take keepsDashes words with
    | .error stop => .error stop
    | .ok s =>
      if s.source.isNone then .error (.error .missingSource)
      else if s.extras.isEmpty then .ok s
      else .error (.error (.unrecognized s.extras))

end CommandLine
end Risclet
