import Risclet.Lower.Session
import Risclet.Proofs.Assembly.Symbols
import Risclet.Proofs.Lower.Progress
import Risclet.Session
import Risclet.Tuple.Session

/-! # Stages without a history

A generator, and each of its stages, can be kept in use for one request after the other
(`Session.answer`, `Tuple.answer`, `Lower.answer`).  What one remembers of earlier requests has no
influence on a request for a whole program: a generator forgets it before it begins, and a stage
begins with tables of its own.  There is one exception to the latter, and it makes no difference.
If lowering cannot begin with the variables of a program, the old tables stay; but then the program
is rejected, for a reason that lies in its own variables (`Lower.build_outcome`).

What a generator remembers after a request for a text is about that request alone
(`Session.describes_generate`), and a request to a single stage that fails changes nothing
(`Session.answer_of_error`).  So requests in front of one for a text can be left out of a run, and
so can those to single stages that fail.

Main statement: `history_immaterial`.
-/
namespace Risclet

/-! ## Runs -/

section Runs
variable {State Request Answer : Type} (answer : State → Request → State × Answer)

/-- The state after some requests. -/
def stateAfter (start : State) (requests : List Request) : State :=
  requests.foldl (fun s request => (answer s request).1) start

/-- The answer to a request after some others. -/
def answerAfter (start : State) (history : List Request) (request : Request) : Answer :=
  (answer (stateAfter answer start history) request).2

variable {answer}

theorem stateAfter_cons (start : State) (request : Request) (later : List Request) :
    stateAfter answer start (request :: later) = stateAfter answer (answer start request).1 later :=
  rfl

theorem stateAfter_append (start : State) (first second : List Request) :
    stateAfter answer start (first ++ second) =
      stateAfter answer (stateAfter answer start first) second :=
  List.foldl_append

/-- A request that leads to the same state from anywhere makes all before it immaterial. -/
theorem stateAfter_of_forgets {request : Request}
    (h : ∀ s t, (answer s request).1 = (answer t request).1) (start : State)
    (history later : List Request) :
    stateAfter answer start (history ++ request :: later) =
      stateAfter answer start (request :: later) := by
  rw [stateAfter_append, stateAfter_cons, stateAfter_cons, h _ start]

/-- A request that leaves the state as it was is itself immaterial. -/
theorem stateAfter_of_unchanged {start : State} {history : List Request} {request : Request}
    (h : (answer (stateAfter answer start history) request).1 = stateAfter answer start history)
    (later : List Request) :
    stateAfter answer start (history ++ request :: later) =
      stateAfter answer start (history ++ later) := by
  rw [stateAfter_append, stateAfter_append, stateAfter_cons, h]

end Runs

/-! ## Stages -/

/-- **Lowering a program gives the same in every state.** -/
theorem Lower.build_outcome (o : Options) (st : State) (p : Tuple.Program) :
    (build o st p).2 = Program.ofTuple o p := by
  unfold Program.ofTuple build
  cases State.ofVars p.vars with
  | error e => rfl
  | ok first => rfl

/-! ## Generators -/

namespace Session

/-- All stages at once give what they give one after the other. -/
theorem generateAll_outcome (o : Options) (statements : List Node) :
    (generateAll o statements).2 = (generate o statements).map Generation.assembly := by
  simp only [generateAll, buildTuple, generate]
  cases Tuple.Program.ofStatements o statements with
  | error e => rfl
  | ok tuple =>
    simp only [buildLower, Except.mapError, Outcome.bind_ok]
    cases Lower.Program.ofTuple o tuple with
    | error f => rfl
    | ok lower =>
      simp only [Outcome.bind_ok]
      cases Assembly.emit o lower <;> rfl

/-- What a generator remembers and answers after a request for the text of some statements: both
programs and the text of the second one; the first program, if that cannot be lowered; or nothing,
if the statements are rejected. -/
inductive Describes (o : Options) (statements : List Node) :
    Session → Except Failure (Option String) → Prop where
  | done {tuple : Tuple.Program} {lower : Lower.Program} {text : String} :
      Tuple.Program.ofStatements o statements = .ok tuple →
      Lower.Program.ofTuple o tuple = .ok lower → Assembly.emit o lower = .ok text →
      Describes o statements ⟨some tuple, some lower⟩ (.ok (some text))
  | unlowered {tuple : Tuple.Program} {f : Failure} :
      Tuple.Program.ofStatements o statements = .ok tuple →
      Lower.Program.ofTuple o tuple = .error f →
      Describes o statements ⟨some tuple, none⟩ (.error f)
  | rejected {e : Error} :
      Tuple.Program.ofStatements o statements = .error e →
      Describes o statements ⟨none, none⟩ (.error (.rejected e))

variable {s : Session} {o : Options}

/-- **After a request for a text everything is about that request.** -/
theorem describes_generate (s : Session) (o : Options) (statements : List Node) :
    Describes o statements (s.answer o (.generate statements)).1
      (s.answer o (.generate statements)).2 := by
  simp only [answer, generateAll, buildTuple]
  cases hp : Tuple.Program.ofStatements o statements with
  | error e => exact .rejected hp
  | ok tuple =>
    simp only [buildLower]
    cases hq : Lower.Program.ofTuple o tuple with
    | error f => exact .unlowered hp hq
    | ok lower =>
      obtain ⟨text, htext⟩ := Lower.exists_emit hp hq
      simp only [htext]
      exact .done hp hq htext

theorem buildTuple_of_error {statements : List Node} {f : Failure}
    (h : (s.buildTuple o statements).2 = .error f) : (s.buildTuple o statements).1 = s := by
  unfold buildTuple at h ⊢
  cases hp : Tuple.Program.ofStatements o statements with
  | error e => rfl
  | ok tuple =>
    rw [hp] at h
    cases h

theorem buildLower_of_error {program : Tuple.Program} {f : Failure}
    (h : (s.buildLower o program).2 = .error f) : (s.buildLower o program).1 = s := by
  unfold buildLower at h ⊢
  cases hq : Lower.Program.ofTuple o program with
  | error e => rfl
  | ok lower =>
    rw [hq] at h
    cases h

/-- **A request to a single stage that fails changes nothing.** -/
theorem answer_of_error {request : Request} {f : Failure}
    (hstage : ∀ statements, request ≠ .generate statements)
    (h : (s.answer o request).2 = .error f) : (s.answer o request).1 = s := by
  cases request with
  | generate statements => exact absurd rfl (hstage statements)
  | tuple statements => exact buildTuple_of_error (Outcome.map_eq_error.mp h)
  | lower program => exact buildLower_of_error (Outcome.map_eq_error.mp h)
  | emit program => rfl
  | lowerStored =>
    unfold answer at h ⊢
    cases hs : s.tuple with
    | none => rfl
    | some program =>
      rw [hs] at h
      exact buildLower_of_error (Outcome.map_eq_error.mp h)
  | emitStored =>
    unfold answer
    cases s.lower <;> rfl

end Session

/-- **The history is immaterial.**  A generator is asked for texts, for the programs of single
stages and for texts of programs, and each of the stages for programs and parts of them, in any
order and with any outcome.  A request for a text leads to the same state as it does at first,
whatever follows, and has the same outcome, which is that of the stages by themselves; and what is
then remembered is about its statements alone.  A request to a single stage that fails makes no
difference to what is remembered then or later.  And a stage gives for a whole program what it gives
at first. -/
theorem history_immaterial (o : Options) :
    (∀ history statements later,
      stateAfter (Session.answer · o) {} (history ++ .generate statements :: later) =
        stateAfter (Session.answer · o) {} (.generate statements :: later)) ∧
    (∀ history statements,
      answerAfter (Session.answer · o) {} history (.generate statements) =
        answerAfter (Session.answer · o) {} [] (.generate statements) ∧
      answerAfter (Session.answer · o) {} history (.generate statements) =
        (generate o statements).map (fun g => some g.assembly)) ∧
    (∀ history statements, Session.Describes o statements
      (stateAfter (Session.answer · o) {} (history ++ [.generate statements]))
      (answerAfter (Session.answer · o) {} history (.generate statements))) ∧
    (∀ history request f, (∀ statements, request ≠ .generate statements) →
      answerAfter (Session.answer · o) {} history request = .error f → ∀ later,
        stateAfter (Session.answer · o) {} (history ++ request :: later) =
          stateAfter (Session.answer · o) {} (history ++ later)) ∧
    (∀ history statements,
      answerAfter (Tuple.answer o) Table.empty history (.program statements) =
        answerAfter (Tuple.answer o) Table.empty [] (.program statements) ∧
      answerAfter (Tuple.answer o) Table.empty history (.program statements) =
        (Tuple.Program.ofStatements o statements).map .program) ∧
    ∀ history program,
      answerAfter (Lower.answer o) {} history (.program program) =
        answerAfter (Lower.answer o) {} [] (.program program) ∧
      answerAfter (Lower.answer o) {} history (.program program) =
        (Lower.Program.ofTuple o program).map .program := by
  refine ⟨fun history statements later => ?_, fun history statements => ⟨rfl, ?_⟩,
    fun history statements => ?_, fun history request f hstage herr later => ?_,
    fun history statements => ⟨rfl, rfl⟩, fun history program => ?_⟩
  · refine stateAfter_of_forgets ?_ _ history later
    exact fun s t => rfl
  · have hall := Session.generateAll_outcome o statements
    simp only [answerAfter, Session.answer, hall]
    cases generate o statements <;> rfl
  · rw [stateAfter_append, stateAfter_cons]
    exact Session.describes_generate _ o statements
  · exact stateAfter_of_unchanged (Session.answer_of_error hstage herr) later
  · simp [answerAfter, Lower.answer, Lower.build_outcome]

/-- Statements that are compiled. -/
def steady : List Node :=
  [.decl "x" "Int32" (.int 3 Pos.unknown) Pos.unknown]

/-- Statements that are flattened and cannot be lowered. -/
def modulus : List Node :=
  [.decl "y" "Int32" (.binary (.foreign "%") (.int 7 Pos.unknown) (.int 2 Pos.unknown) Pos.unknown)
    Pos.unknown]

/-- A tuple program that is none. -/
def broken : Tuple.Program := ⟨[.foreign "?"], Table.empty⟩

/-- A text is made, then lowering of something else fails and changes nothing, and then a text
cannot be made: what was made at first is forgotten, and the tuple program of the last statements
remembered. -/
theorem history_immaterial_broken :
    answerAfter (Session.answer · {}) {} [.generate steady] (.lower broken) =
        .error (.defect .foreignTuple) ∧
      stateAfter (Session.answer · {}) {} [.generate steady, .lower broken] =
        stateAfter (Session.answer · {}) {} [.generate steady] ∧
      ∃ s answer, stateAfter (Session.answer · {}) {}
          [.generate steady, .lower broken, .generate modulus] = s ∧
        Session.Describes {} modulus s answer ∧ s.tuple.isSome ∧ s.lower = none := by
  obtain ⟨-, -, hdescribed, hfailed, -⟩ := history_immaterial {}
  have herr : answerAfter (Session.answer · {}) {} [.generate steady] (.lower broken) =
      .error (.defect .foreignTuple) := rfl
  have hlast := hdescribed [.generate steady, .lower broken] modulus
  exact ⟨herr, hfailed _ _ _ (by simp) herr [], _, _, rfl, hlast, rfl, rfl⟩

end Risclet
