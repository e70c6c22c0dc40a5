import Risclet.Job
import Risclet.Proofs.Assembly.Symbols
import Risclet.Proofs.FileTree
import Risclet.Proofs.Text.Halves

/-! # The plan of a job and the stages of compilation

The plan of a job goes through the stages on its own, and leaves off at the first one that is to be
shown.  Still it agrees with compiling the same text: where nothing is to be shown, it ends in
writing what compiling makes, or in the failure of compiling (`ending_planText`); otherwise it shows
the outcome of the stages up to the earliest that is asked for, and compiling makes the same of them
(`planText_shown`, `Stage.shown_of_compile`).

What a host refuses before the output is opened leaves all files as they are.  From then on the
output holds a part of the text, as much as the host has stored (`Host.Fills`).  So a job changes
files only by writing what compiling makes of its source, to the end or up to a refusal
(`runOn_cases`).
-/
namespace Risclet

/-! ## Stages that can be shown -/

/-- The stages that can be shown, in their order. -/
inductive Stage where
  | tokens
  | tree
  | tuple
  | lower
deriving DecidableEq, Repr

/-- The earliest stage that is to be shown. -/
def Emit.earliest? (e : Emit) : Option Stage :=
  if e.tokens then some .tokens
  else if e.tree then some .tree
  else if e.tuple then some .tuple
  else if e.lower then some .lower
  else none

theorem Emit.earliest?_eq_none {e : Emit} : e.earliest? = none ↔ e.any = false := by
  obtain ⟨tokens, tree, tuple, lower⟩ := e
  cases tokens <;> cases tree <;> cases tuple <;> cases lower <;> decide

theorem Emit.any_of_earliest? {e : Emit} {stage : Stage} (h : e.earliest? = some stage) :
    e.any = true := by
  rw [← Bool.not_eq_false, ← earliest?_eq_none, h]
  simp

/-- All stages before the earliest are passed over. -/
theorem Emit.of_earliest? {e : Emit} {stage : Stage} (h : e.earliest? = some stage) :
    (stage = .tokens ∧ e.tokens = true) ∨
      (stage = .tree ∧ e.tokens = false ∧ e.tree = true) ∨
      (stage = .tuple ∧ e.tokens = false ∧ e.tree = false ∧ e.tuple = true) ∨
      (stage = .lower ∧ e.tokens = false ∧ e.tree = false ∧ e.tuple = false ∧ e.lower = true) := by
  obtain ⟨tokens, tree, tuple, lower⟩ := e
  cases tokens <;> cases tree <;> cases tuple <;> cases lower <;> simp_all [earliest?, eq_comm]

/-- The tuple program of a source text. -/
def tupleSource (o : Options) (source : String) : Except Failure Tuple.Program := do
  let statements ← parseSource source
  (Tuple.Program.ofStatements o statements).mapError .rejected

/-- The register program of a source text. -/
def lowerSource (o : Options) (source : String) : Except Failure Lower.Program := do
  let tuple ← tupleSource o source
  Lower.Program.ofTuple o tuple

/-- What a stage shows, if it and all stages before it succeed. -/
def Stage.shown (o : Options) (source : String) : Stage → Except Failure String
  | tokens => (tokenize source).map (fun tokens => Token.listing tokens ++ "\n")
  | tree => (parseSource source).map (fun statements => Node.print statements 0)
  | tuple => (tupleSource o source).map Tuple.Program.listing
  | lower => (lowerSource o source).map Lower.Program.listing

/-- The texts that are printed to show a stage, one after the other. -/
def Stage.texts (o : Options) (source : String) : Stage → Except Failure (List String)
  | tokens => (tokenize source).map (fun tokens => [Token.listing tokens ++ "\n"])
  | tree => (parseSource source).map (fun statements =>
      (Node.printedLines statements 0).map (· ++ "\n"))
  | tuple => (tupleSource o source).map (fun tuple => [tuple.listing])
  | lower => (lowerSource o source).map (fun lower => [lower.listing])

/-- What is printed to show a stage is what the stage shows. -/
theorem Stage.shown_eq (o : Options) (source : String) (stage : Stage) :
    stage.shown o source = (stage.texts o source).map String.join := by
  cases stage with
  | tokens => cases h : tokenize source <;> simp [shown, texts, h]
  | tree => cases h : parseSource source <;> simp [shown, texts, h, Node.print, Text.unlines]
  | tuple => cases h : tupleSource o source <;> simp [shown, texts, h]
  | lower => cases h : lowerSource o source <;> simp [shown, texts, h]

/-- What a compilation holds of a stage. -/
def Compilation.shown (c : Compilation) : Stage → String
  | .tokens => Token.listing c.tokens ++ "\n"
  | .tree => Node.print c.statements 0
  | .tuple => c.tuple.listing
  | .lower => c.lower.listing

/-- **A compilation holds what its stages show.** -/
theorem Stage.shown_of_compile {o : Options} {source : String} {c : Compilation}
    (h : compile o source = .ok c) (stage : Stage) :
    stage.shown o source = .ok (c.shown stage) := by
  obtain ⟨htokens, hparse, hgenerate⟩ := compile_eq_ok.mp h
  obtain ⟨htuple, hlower, -⟩ := generate_eq_ok.mp hgenerate
  have hstatements : parseSource source = .ok c.statements := by
    rw [parseSource, htokens, Outcome.bind_ok, hparse]
  have hprogram : tupleSource o source = .ok c.tuple := by
    rw [tupleSource, hstatements, Outcome.bind_ok, htuple, Outcome.mapError_ok]
  cases stage with
  | tokens => rw [shown, htokens, Outcome.map_ok]; rfl
  | tree => rw [shown, hstatements, Outcome.map_ok]; rfl
  | tuple => rw [shown, hprogram, Outcome.map_ok]; rfl
  | lower => rw [shown, lowerSource, hprogram, Outcome.bind_ok, hlower, Outcome.map_ok]; rfl

/-! ## Plans -/

namespace Plan
variable {α β : Type}

@[simp] theorem after_nil (p : Plan) : p.after [] = p := by
  simp [after]

@[simp] theorem ending_after (printed : List String) (p : Plan) :
    (p.after printed).ending = p.ending := rfl

theorem andThen_bind (x : Except Failure α) (f : α → Except Failure β) (next : β → Plan) :
    andThen (x >>= f) next = andThen x fun a => andThen (f a) next := by
  cases x <;> rfl

theorem andThen_map (x : Except Failure α) (f : α → β) (next : β → Plan) :
    andThen (x.map f) next = andThen x fun a => next (f a) := by
  cases x <;> rfl

/-- How a sequence ends does not depend on what is printed on the way. -/
theorem ending_andThen_congr {x : Except Failure α} {f g : α → Plan}
    (h : ∀ a, (f a).ending = (g a).ending) : (andThen x f).ending = (andThen x g).ending := by
  cases x with
  | error e => rfl
  | ok a => exact h a

end Plan

namespace Job
variable {job : Job}

/-- The last line that is printed. -/
def farewell (job : Job) : String :=
  "Successfully compiled to " ++ job.output ++ "\n"

/-- **A job that shows nothing ends like compiling.** -/
theorem ending_planText (h : job.emit.any = false) (text : String) :
    (job.planText text).ending =
      (Plan.andThen (compile job.options text) fun c =>
        ⟨[], .write job.output c.assembly job.farewell⟩).ending := by
  obtain ⟨⟨⟨htokens, htree⟩, htuple⟩, hlower⟩ :
      ((job.emit.tokens = false ∧ job.emit.tree = false) ∧ job.emit.tuple = false) ∧
        job.emit.lower = false := by
    simpa [Emit.any] using h
  simp only [planText, compile, generate, htokens, htree, htuple, hlower, Bool.false_eq_true,
    if_false, Plan.andThen_bind]
  rw [Plan.ending_after]
  refine Plan.ending_andThen_congr fun tokens => ?_
  refine Plan.ending_andThen_congr fun statements => ?_
  rw [Plan.ending_after]
  refine Plan.ending_andThen_congr fun tuple => ?_
  rw [Plan.ending_after]
  refine Plan.ending_andThen_congr fun lower => ?_
  rw [Plan.ending_after]
  exact Plan.ending_andThen_congr fun assembly => rfl

/-- **A job that shows a stage shows the earliest that is asked for.** -/
theorem planText_shown {stage : Stage} (h : job.emit.earliest? = some stage) (text : String) :
    job.planText text =
      .andThen (stage.texts job.options text) fun texts => ⟨texts, .shown⟩ := by
  have hquiet : ∀ line, job.progress line = [] := fun line => if_pos (Emit.any_of_earliest? h)
  simp only [planText, hquiet, Plan.after_nil]
  rcases Emit.of_earliest? h with ⟨rfl, ht⟩ | ⟨rfl, ht, hr⟩ | ⟨rfl, ht, hr, hu⟩ |
    ⟨rfl, ht, hr, hu, hl⟩
  · simp [ht, Stage.texts, Plan.andThen_map]
  · simp [ht, hr, Stage.texts, parseSource, Plan.andThen_map, Plan.andThen_bind]
  · simp [ht, hr, hu, Stage.texts, tupleSource, parseSource, Plan.andThen_map, Plan.andThen_bind]
  · simp [ht, hr, hu, hl, Stage.texts, lowerSource, tupleSource, parseSource, Plan.andThen_map,
      Plan.andThen_bind]

theorem plan_of_text {bytes : ByteArray} {text : String}
    (htext : Text.Utf8.decode bytes = .ok text) :
    job.plan (.ok bytes) = job.planText (Text.normaliseLines text) := by
  simp only [plan, htext]

/-- Only a source that is read and compiled leads to writing, and then it is its assembler text that
is written; only a job with a stage to show shows something. -/
theorem plan_cases (job : Job) (read : Except Trouble ByteArray) :
    (∃ e, (job.plan read).ending = .failed e) ∨
      (job.emit.any = true ∧ (job.plan read).ending = .shown) ∨
      (job.emit.any = false ∧ ∃ bytes text c, read = .ok bytes ∧
        Text.Utf8.decode bytes = .ok text ∧
        compile job.options (Text.normaliseLines text) = .ok c ∧
        (job.plan read).ending = .write job.output c.assembly job.farewell) := by
  cases read with
  | error e => exact .inl ⟨_, rfl⟩
  | ok bytes =>
    cases htext : Text.Utf8.decode bytes with
    | error f => exact .inl ⟨.job (.encoding f), by simp [plan, htext]⟩
    | ok text =>
      rw [plan_of_text htext]
      cases hstage : job.emit.earliest? with
      | some stage =>
        rw [planText_shown hstage]
        cases stage.texts job.options (Text.normaliseLines text) with
        | error f => exact .inl ⟨_, rfl⟩
        | ok texts => exact .inr (.inl ⟨Emit.any_of_earliest? hstage, rfl⟩)
      | none =>
        have hany : job.emit.any = false := Emit.earliest?_eq_none.mp hstage
        rw [ending_planText hany]
        cases hc : compile job.options (Text.normaliseLines text) with
        | error f => exact .inl ⟨_, rfl⟩
        | ok c => exact .inr (.inr ⟨hany, bytes, text, c, rfl, htext, hc, rfl⟩)

end Job

/-! ## What hosts refuse -/

namespace Host

/-- Texts of which none is refused are printed one behind the other. -/
theorem print_eq_append {host : Host} {out : String} {texts : List String}
    (h : (host.print out texts).2 = none) :
    host.print out texts = (out ++ String.join texts, none) := by
  induction texts generalizing out with
  | nil => simp [print]
  | cons text more ih =>
    rw [print] at h ⊢
    split at h
    · cases h
    · next htext => rw [ih h, String.join_cons, String.append_assoc]

/-- Nothing is refused where no text ever is. -/
theorem print_of_console (host : Host) (h : ∀ out text, host.console out text = none)
    (out : String) (texts : List String) : (host.print out texts).2 = none := by
  induction texts generalizing out with
  | nil => rfl
  | cons text more ih =>
    rw [print, h]
    exact ih _

theorem read_eq_ok {host : Host} {t : FileTree} {path : String} {bytes : ByteArray} :
    host.read t path = .ok bytes ↔
      host.denies .reading path = none ∧ t.read path = .ok bytes := by
  unfold read
  cases host.denies .reading path with
  | some r => simp
  | none => simp [Outcome.mapError_eq_ok]

theorem create_eq_ok {host : Host} {t after : FileTree} {path : String} {names : List String} :
    host.create t path = .ok (names, after) ↔
      host.denies .writing path = none ∧ t.target path = .ok names ∧
        after = t.set names ByteArray.empty := by
  unfold create
  cases host.denies .writing path with
  | some r => simp
  | none => simp [Outcome.mapError_eq_ok, FileTree.create_eq_ok]

/-- What a file holds in the end that has been opened for a text, and what the host has refused: to
encode the text, to store all of it, or to print the farewell behind `out`.  The file at first holds
nothing. -/
inductive Fills (host : Host) (names : List String) (out text farewell : String) :
    ByteArray → Option Refusal → Prop
  | unencoded (f : Text.EncodeFault) (hhalf : host.halves.fault? text.toList = some f) :
      Fills host names out text farewell ByteArray.empty (some (.codec f.message))
  | short (count : Nat) (f : SystemFault) (hhalf : host.halves.fault? text.toList = none)
      (hshort : host.short names text.toUTF8 = some (count, f)) :
      Fills host names out text farewell (text.toUTF8.extract 0 count) (some (.system f))
  | unprinted (r : Refusal) (hhalf : host.halves.fault? text.toList = none)
      (hshort : host.short names text.toUTF8 = none)
      (hconsole : host.console out farewell = some r) :
      Fills host names out text farewell text.toUTF8 (some r)
  | done (hhalf : host.halves.fault? text.toList = none)
      (hshort : host.short names text.toUTF8 = none) (hconsole : host.console out farewell = none) :
      Fills host names out text farewell text.toUTF8 none

/-- Where nothing is refused, the file holds the whole text. -/
theorem fills_none {host : Host} {names : List String} {out text farewell : String}
    {bytes : ByteArray} :
    host.Fills names out text farewell bytes none ↔
      host.halves.fault? text.toList = none ∧ host.short names text.toUTF8 = none ∧
        host.console out farewell = none ∧ bytes = text.toUTF8 := by
  constructor
  · rintro ⟨⟩
    exact ⟨‹_›, ‹_›, ‹_›, rfl⟩
  · rintro ⟨hhalf, hshort, hconsole, rfl⟩
    exact .done hhalf hshort hconsole

section Write
variable {host : Host} {t after : FileTree} {out path text farewell : String} {names : List String}

theorem write_of_not_created {e : Trouble} (h : host.create t path = .error e) :
    host.write t out path text farewell = (t, out, some e) := by
  simp only [write, h]

section Created
variable (h : host.create t path = .ok (names, after))
include h

theorem write_unencoded {f : Text.EncodeFault} (hhalf : host.halves.fault? text.toList = some f) :
    host.write t out path text farewell =
      (t.set names ByteArray.empty, out, some (.refused (.codec f.message))) := by
  obtain ⟨-, -, rfl⟩ := create_eq_ok.mp h
  simp only [write, h, store, hhalf]

section Encoded
variable (hhalf : host.halves.fault? text.toList = none)
include hhalf

theorem write_short {count : Nat} {f : SystemFault}
    (hshort : host.short names text.toUTF8 = some (count, f)) :
    host.write t out path text farewell =
      (t.set names (text.toUTF8.extract 0 count), out, some (.refused (.system f))) := by
  obtain ⟨-, -, rfl⟩ := create_eq_ok.mp h
  simp only [write, h, store, hhalf, hshort, FileTree.set_set]

theorem write_stored (hshort : host.short names text.toUTF8 = none) :
    host.write t out path text farewell =
      (t.set names text.toUTF8, (host.print out [farewell]).1,
        (host.print out [farewell]).2.map .refused) := by
  obtain ⟨-, -, rfl⟩ := create_eq_ok.mp h
  simp only [write, h, store, hhalf, hshort, FileTree.set_set]

end Encoded

/-- **What comes of writing once the file is open.** -/
theorem write_of_created :
    ∃ bytes refusal? printed, host.Fills names out text farewell bytes refusal? ∧
      host.write t out path text farewell =
        (t.set names bytes, printed, refusal?.map .refused) := by
  cases hhalf : host.halves.fault? text.toList with
  | some f => exact ⟨_, _, _, .unencoded f hhalf, write_unencoded h hhalf⟩
  | none =>
    cases hshort : host.short names text.toUTF8 with
    | some short => exact ⟨_, _, _, .short short.1 short.2 hhalf hshort, write_short h hhalf hshort⟩
    | none =>
      rw [write_stored h hhalf hshort]
      cases hconsole : host.console out farewell with
      | some r =>
        exact ⟨_, _, out, .unprinted r hhalf hshort hconsole, by simp [print, hconsole]⟩
      | none =>
        exact ⟨_, _, out ++ farewell, .done hhalf hshort hconsole, by simp [print, hconsole]⟩

/-- A host that refuses nothing of it writes the text. -/
theorem write_of_fills (hfills : host.Fills names out text farewell text.toUTF8 none) :
    host.write t out path text farewell = (t.set names text.toUTF8, out ++ farewell, none) := by
  obtain ⟨hhalf, hshort, hconsole, -⟩ := fills_none.mp hfills
  rw [write_stored h hhalf hshort]
  simp [print, hconsole]

end Created
end Write

/-- A host that prints everything, stores all of every text and is given no halves.  It may still
keep paths from being opened. -/
structure Ample (host : Host) : Prop where
  prints : ∀ out text, host.console out text = none
  stores : ∀ names bytes, host.short names bytes = none
  noHalf : ∀ c, host.halves.half? c = none

/-- Where everything is taken, nothing is refused once the file is open. -/
theorem Ample.fills {host : Host} (h : host.Ample) {names : List String}
    {out text farewell : String} {bytes : ByteArray} {refusal? : Option Refusal}
    (hfills : host.Fills names out text farewell bytes refusal?) : refusal? = none := by
  have hwhole : host.halves.fault? text.toList = none :=
    (host.halves.fault?_eq_none).mpr fun c _ => h.noHalf c
  cases hfills with
  | unencoded f hhalf => simp [hwhole] at hhalf
  | short count f _ hshort => simp [h.stores] at hshort
  | unprinted r _ _ hconsole => simp [h.prints] at hconsole
  | done => rfl

/-- The host takes all that a plan gives it to print and to store in the file at `names`. -/
structure Takes (host : Host) (names : List String) (plan : Plan) : Prop where
  prints : (host.print "" plan.printed).2 = none
  stores : ∀ path text farewell, plan.ending = .write path text farewell →
    host.Fills names (String.join plan.printed) text farewell text.toUTF8 none

/-- Where everything is taken, every plan is. -/
theorem Ample.takes {host : Host} (h : host.Ample) (names : List String) (plan : Plan) :
    host.Takes names plan := by
  refine ⟨print_of_console _ h.prints _ _, fun path text farewell _ => ?_⟩
  refine .done ?_ (h.stores _ _) (h.prints _ _)
  exact (host.halves.fault?_eq_none).mpr fun c _ => h.noHalf c

/-- The host with the defaults takes everything. -/
theorem ample_default : ({} : Host).Ample :=
  ⟨fun _ _ => rfl, fun _ _ => rfl, fun _ => rfl⟩

end Host

/-! ## Jobs on hosts -/

namespace Job
section Hosts
variable {host : Host} {job : Job} {t : FileTree}

theorem runOn_of_refused {out : String} {r : Refusal}
    (h : host.print "" (job.plan (host.read t job.source)).printed = (out, some r)) :
    job.runOn host t = (t, out, some (.refused r)) := by
  simp only [runOn, h]

section Printed
variable (hprints : (host.print "" (job.plan (host.read t job.source)).printed).2 = none)
include hprints

theorem runOn_of_failed {e : Trouble}
    (h : (job.plan (host.read t job.source)).ending = .failed e) :
    job.runOn host t = (t, String.join (job.plan (host.read t job.source)).printed, some e) := by
  simp only [runOn, Host.print_eq_append hprints, h, String.empty_append]

theorem runOn_of_shown (h : (job.plan (host.read t job.source)).ending = .shown) :
    job.runOn host t = (t, String.join (job.plan (host.read t job.source)).printed, none) := by
  simp only [runOn, Host.print_eq_append hprints, h, String.empty_append]

theorem runOn_of_write {path text farewell : String}
    (h : (job.plan (host.read t job.source)).ending = .write path text farewell) :
    job.runOn host t =
      host.write t (String.join (job.plan (host.read t job.source)).printed) path text
        farewell := by
  simp only [runOn, Host.print_eq_append hprints, h, String.empty_append]

end Printed

/-- **What a job does to a file tree.**  It goes wrong and leaves the tree as it is, or shows a
stage and leaves the tree as it is, or opens its output and writes what compiling makes of its
source, as far as the host lets it. -/
theorem runOn_cases (host : Host) (job : Job) (t : FileTree) :
    (∃ printed e, job.runOn host t = (t, printed, some e)) ∨
      (job.emit.any = true ∧ ∃ printed, job.runOn host t = (t, printed, none)) ∨
      (job.emit.any = false ∧ ∃ bytes text c names after, host.read t job.source = .ok bytes ∧
        Text.Utf8.decode bytes = .ok text ∧
        compile job.options (Text.normaliseLines text) = .ok c ∧
        host.create t job.output = .ok (names, after) ∧
        ∃ stored refusal? out printed,
          host.Fills names out c.assembly job.farewell stored refusal? ∧
          job.runOn host t = (t.set names stored, printed, refusal?.map .refused)) := by
  cases hprint : host.print "" (job.plan (host.read t job.source)).printed with
  | mk out refusal? =>
    cases refusal? with
    | some r => exact .inl ⟨out, .refused r, runOn_of_refused hprint⟩
    | none =>
      have hprints : (host.print "" (job.plan (host.read t job.source)).printed).2 = none := by
        rw [hprint]
      rcases plan_cases job (host.read t job.source) with ⟨e, h⟩ | ⟨hany, h⟩ |
        ⟨hany, bytes, text, c, hread, htext, hc, h⟩
      · exact .inl ⟨_, e, runOn_of_failed hprints h⟩
      · exact .inr (.inl ⟨hany, _, runOn_of_shown hprints h⟩)
      · rw [runOn_of_write hprints h]
        cases hcreate : host.create t job.output with
        | error e => exact .inl ⟨_, e, Host.write_of_not_created hcreate⟩
        | ok opened =>
          obtain ⟨names, after⟩ := opened
          obtain ⟨stored, refusal?, printed, hfills, hwrite⟩ := Host.write_of_created hcreate
          exact .inr (.inr ⟨hany, bytes, text, c, names, after, hread, htext, hc, rfl,
            stored, refusal?, _, printed, hfills, hwrite⟩)

end Hosts
end Job
end Risclet
