import Mathlib.Data.List.Forall2
import Risclet.Proofs.Calls
import Risclet.Proofs.Text.Lines

/-! # The ends of lines are invisible

A run takes from a file the text with line feeds at the ends of its lines, and nothing else
(`Job.plan_congr`).  So let two file trees be alike: the same directories, and files in the same
places that give the same texts.  Where a path leads depends on what there is, not on what it holds,
so every path leads to the same place in both (`Alike.follow`, `Alike.target`).  Hence a run prints
the same on both and ends with the same status, and what it writes on one of them it writes on the
other, to the same file (`call_concurs`).  The two are alike afterwards, so this holds along
sequences of runs too, where one may read what another has written (`calls_concur`).

Texts that differ in the ends of their lines only make trees alike.

Main statement: `line_ends_invisible`.
-/
namespace Risclet

/-- The text that a run finds in the bytes of a file. -/
def sourceText (bytes : ByteArray) : Except Text.Utf8.Fault String :=
  (Text.Utf8.decode bytes).map Text.normaliseLines

theorem sourceText_toUTF8 (text : String) :
    sourceText text.toUTF8 = .ok (Text.normaliseLines text) := by
  rw [sourceText, Text.Utf8.decode_toUTF8, Outcome.map_ok]

/-- The same text is found, whichever ends its lines have. -/
theorem sourceText_write (e : Text.LineEnd) {text : String} (h : '\r' ∉ text.toList) :
    sourceText text.toUTF8 = sourceText (e.write text).toUTF8 := by
  rw [sourceText_toUTF8, sourceText_toUTF8, Text.normaliseLines_of_not_mem h,
    Text.normaliseLines_write e h]

/-! ## File trees that give the same texts -/

namespace FileTree

/-- The same directories, and files in the same places that give the same texts. -/
structure Alike (t u : FileTree) : Prop where
  dirs : t.dirs = u.dirs
  content : ∀ names, (t.content? names).map sourceText = (u.content? names).map sourceText

theorem alike_set (t : FileTree) (names : List String) {bytes other : ByteArray}
    (h : sourceText bytes = sourceText other) : (t.set names bytes).Alike (t.set names other) := by
  refine ⟨rfl, fun key => ?_⟩
  simp only [content?_set]
  split
  · simp [h]
  · rfl

namespace Alike
variable {t u : FileTree}

theorem set (h : t.Alike u) (names : List String) (bytes : ByteArray) :
    (t.set names bytes).Alike (u.set names bytes) := by
  refine ⟨h.dirs, fun key => ?_⟩
  simp only [content?_set]
  split
  · rfl
  · exact h.content key

theorem isSome (h : t.Alike u) (names : List String) :
    (t.content? names).isSome = (u.content? names).isSome := by
  simpa using congrArg Option.isSome (h.content names)

theorem isDir (h : t.Alike u) (names : List String) : t.isDir names = u.isDir names := by
  rw [FileTree.isDir, FileTree.isDir, h.dirs]

theorem step (h : t.Alike u) (place : Place) (name : String) :
    t.step place name = u.step place name := by
  cases place with
  | file names => rfl
  | dir names => simp only [FileTree.step, h.isSome, h.isDir]

/-- **A way leads to the same place in both.** -/
theorem follow (h : t.Alike u) (place : Place) (way : List String) :
    t.follow place way = u.follow place way := by
  induction way generalizing place with
  | nil => rfl
  | cons name way ih =>
    rw [FileTree.follow, FileTree.follow, h.step]
    exact congrArg (u.step place name >>= ·) (funext ih)

/-- What is read from a path gives the same text. -/
theorem read (h : t.Alike u) (path : String) :
    (t.read path).map sourceText = (u.read path).map sourceText := by
  simp only [FileTree.read, lookUp, h.follow]
  cases checkPath path with
  | error fault => rfl
  | ok _ =>
    rw [Outcome.bind_ok, Outcome.bind_ok]
    cases u.follow (origin path) (parts path) with
    | error fault => rfl
    | ok place =>
      cases place with
      | dir names => rfl
      | file names =>
        simp only [Outcome.bind_ok]
        split
        · rfl
        · have hcontent := h.content names
          cases ht : t.content? names <;> cases hu : u.content? names <;> simp_all

theorem target (h : t.Alike u) (path : String) : t.target path = u.target path := by
  simp only [FileTree.target, h.follow, h.step]

/-- **Opening a path for writing fails on both or on none**, and leads to the same place. -/
theorem create (h : t.Alike u) (path : String) :
    (∃ e, t.create path = .error e ∧ u.create path = .error e) ∨
      ∃ names, t.target path = .ok names ∧ u.target path = .ok names ∧
        t.create path = .ok (names, t.set names ByteArray.empty) ∧
        u.create path = .ok (names, u.set names ByteArray.empty) := by
  cases htarget : u.target path with
  | error fault => exact .inl ⟨⟨fault, path⟩, by simp [FileTree.create, h.target, htarget]⟩
  | ok names =>
    have ht : t.target path = .ok names := (h.target path).trans htarget
    exact .inr ⟨names, ht, rfl, create_eq_ok.mpr ⟨ht, rfl⟩, create_eq_ok.mpr ⟨htarget, rfl⟩⟩

end Alike
end FileTree

/-! ## Hosts on such trees -/

namespace Host
variable {t u : FileTree}

theorem read_alike (host : Host) (h : t.Alike u) (path : String) :
    (host.read t path).map sourceText = (host.read u path).map sourceText := by
  unfold read
  cases host.denies .reading path with
  | some r => rfl
  | none =>
    have hread := h.read path
    cases ht : t.read path <;> cases hu : u.read path <;> simp_all

theorem create_alike (host : Host) (h : t.Alike u) (path : String) :
    (∃ e, host.create t path = .error e ∧ host.create u path = .error e) ∨
      ∃ names, t.target path = .ok names ∧ u.target path = .ok names ∧
        host.create t path = .ok (names, t.set names ByteArray.empty) ∧
        host.create u path = .ok (names, u.set names ByteArray.empty) := by
  unfold create
  cases host.denies .writing path with
  | some r => exact .inl ⟨_, rfl, rfl⟩
  | none =>
    rcases h.create path with ⟨e, ht, hu⟩ | ⟨names, htarget, hother, ht, hu⟩
    · exact .inl ⟨_, by rw [ht]; rfl, by rw [hu]; rfl⟩
    · exact .inr ⟨names, htarget, hother, by rw [ht]; rfl, by rw [hu]; rfl⟩

/-- **What is written to a path comes to the same**: neither tree is changed, or the same file is
set to the same content in both. -/
theorem write_alike (host : Host) (h : t.Alike u) (out path text farewell : String) :
    ∃ said, (host.write t out path text farewell = (t, said) ∧
        host.write u out path text farewell = (u, said)) ∨
      ∃ names bytes, t.target path = .ok names ∧ u.target path = .ok names ∧
        host.write t out path text farewell = (t.set names bytes, said) ∧
        host.write u out path text farewell = (u.set names bytes, said) := by
  rcases host.create_alike h path with ⟨e, ht, hu⟩ | ⟨names, htarget, hother, ht, hu⟩
  · exact ⟨_, .inl ⟨write_of_not_created ht, write_of_not_created hu⟩⟩
  · cases hhalf : host.halves.fault? text.toList with
    | some f =>
      exact ⟨_, .inr ⟨names, _, htarget, hother, write_unencoded ht hhalf,
        write_unencoded hu hhalf⟩⟩
    | none =>
      cases hshort : host.short names text.toUTF8 with
      | some short =>
        exact ⟨_, .inr ⟨names, _, htarget, hother, write_short ht hhalf hshort,
          write_short hu hhalf hshort⟩⟩
      | none =>
        exact ⟨_, .inr ⟨names, _, htarget, hother, write_stored ht hhalf hshort,
          write_stored hu hhalf hshort⟩⟩

end Host

/-! ## Runs on such trees -/

/-- **A plan depends on the text of the source only.** -/
theorem Job.plan_congr (job : Job) {read other : Except Trouble ByteArray}
    (h : read.map sourceText = other.map sourceText) : job.plan read = job.plan other := by
  have hplan : ∀ r : Except Trouble ByteArray, job.plan r =
      match r.map sourceText with
      | .error e => ⟨[], .failed e⟩
      | .ok (.error f) => ⟨[], .failed (.job (.encoding f))⟩
      | .ok (.ok text) => job.planText text := by
    intro r
    cases r with
    | error e => rfl
    | ok bytes =>
      simp only [Job.plan, Outcome.map_ok, sourceText]
      cases Text.Utf8.decode bytes <;> rfl
  rw [hplan, hplan, h]

/-- **A job does the same on trees that are alike**: it prints the same and goes wrong for the same
reason, and it leaves the same in its output or changes nothing. -/
theorem Job.runOn_alike (host : Host) (job : Job) {t u : FileTree} (h : t.Alike u) :
    ∃ said, (job.runOn host t = (t, said) ∧ job.runOn host u = (u, said)) ∨
      ∃ names bytes, t.target job.output = .ok names ∧ u.target job.output = .ok names ∧
        job.runOn host t = (t.set names bytes, said) ∧
        job.runOn host u = (u.set names bytes, said) := by
  have hplan := job.plan_congr (host.read_alike h job.source)
  simp only [runOn, hplan]
  cases host.print "" (job.plan (host.read u job.source)).printed with
  | mk out refusal? =>
    cases refusal? with
    | some r => exact ⟨_, .inl ⟨rfl, rfl⟩⟩
    | none =>
      rcases job.plan_cases (host.read u job.source) with ⟨e, hu⟩ | ⟨-, hu⟩ |
        ⟨-, -, -, c, -, -, -, hu⟩
      · rw [hu]
        exact ⟨_, .inl ⟨rfl, rfl⟩⟩
      · rw [hu]
        exact ⟨_, .inl ⟨rfl, rfl⟩⟩
      · rw [hu]
        exact host.write_alike h out job.output c.assembly job.farewell

namespace CommandLine

/-- Two runs on the same host and with the same arguments end with the same status and print the
same, and both leave their files as they are or both leave the same in the file at the output path
and change no other. -/
structure Call.Concurs (r other : Call) : Prop where
  host : r.host = other.host
  arguments : r.arguments = other.arguments
  result : r.result = other.result
  files : (r.after = r.before ∧ other.after = other.before) ∨
    ∃ s names bytes, r.settings = .ok s ∧
      r.before.target s.job.output = .ok names ∧ other.before.target s.job.output = .ok names ∧
      r.after = r.before.set names bytes ∧ other.after = other.before.set names bytes

section Alike
variable {t u : FileTree}

/-- **A run does the same on trees that are alike.** -/
theorem call_concurs (h : t.Alike u) (host : Host) (arguments : List String) :
    (call host t arguments).Concurs (call host u arguments) := by
  unfold call
  cases hs : settings host.keepsDashes arguments with
  | error stop =>
    rw [runOn_of_stop hs, runOn_of_stop hs]
    exact ⟨rfl, rfl, rfl, .inl ⟨rfl, rfl⟩⟩
  | ok s =>
    obtain ⟨⟨printed, trouble?⟩, ⟨ht, hu⟩ | ⟨names, bytes, htarget, hother, ht, hu⟩⟩ :=
      s.job.runOn_alike host h
    · rw [runOn_of_settings hs ht, runOn_of_settings hs hu]
      exact ⟨rfl, rfl, rfl, .inl ⟨rfl, rfl⟩⟩
    · rw [runOn_of_settings hs ht, runOn_of_settings hs hu]
      exact ⟨rfl, rfl, rfl, .inr ⟨s, names, bytes, hs, htarget, hother, rfl, rfl⟩⟩

theorem Call.Concurs.alike {r other : Call} (h : r.Concurs other)
    (hbefore : r.before.Alike other.before) : r.after.Alike other.after := by
  rcases h.files with ⟨hkept, hother⟩ | ⟨-, names, bytes, -, -, -, hset, hother⟩
  · rwa [hkept, hother]
  · rw [hset, hother]
    exact hbefore.set names bytes

/-- **Runs one after the other do the same on trees that are alike.** -/
theorem calls_concur (h : t.Alike u) (commands : List (Host × List String)) :
    List.Forall₂ Call.Concurs (calls t commands) (calls u commands) := by
  induction commands generalizing t u with
  | nil => exact .nil
  | cons command commands ih =>
    obtain ⟨host, arguments⟩ := command
    have hcall := call_concurs h host arguments
    exact .cons hcall (ih (hcall.alike h))

end Alike

/-- **The ends of lines are invisible.**  Take a text without carriage returns and put it into a
file, once as it is and once with its lines ended by carriage returns or by pairs.  Whatever the
host and the arguments of a run are, it ends with the same status on both file trees and prints the
same, the places in its error messages included, and it writes the same output or none; so does
every run of a sequence.

And for every text, the two replacements by which it is read are one scan from left to right that
turns the longest end of a line at each place into a line feed.  No carriage return is left, and the
lines are those of the file, each of them with its longest end cut off. -/
theorem line_ends_invisible :
    (∀ (t : FileTree) (names : List String) (text : String) (e : Text.LineEnd),
      '\r' ∉ text.toList →
        (∀ host arguments, (call host (t.set names text.toUTF8) arguments).Concurs
          (call host (t.set names (e.write text).toUTF8) arguments)) ∧
        ∀ commands, List.Forall₂ Call.Concurs (calls (t.set names text.toUTF8) commands)
          (calls (t.set names (e.write text).toUTF8) commands)) ∧
    ∀ text : String,
      (Text.normaliseLines text).toList = Text.unifyEnds text.toList ∧
      '\r' ∉ (Text.normaliseLines text).toList ∧
      (∃ lines last, Text.Divided text.toList lines last) ∧
      ∀ lines last, Text.Divided text.toList lines last →
        (Text.normaliseLines text).toList.splitOn '\n' = lines.map Prod.fst ++ [last] := by
  refine ⟨fun t names text e htext => ?_, fun text => ⟨Text.normaliseLines_eq text, ?_,
    Text.exists_divided text.toList, fun lines last h => h.splitOn_normaliseLines⟩⟩
  · have halike := t.alike_set names (sourceText_write e htext)
    exact ⟨call_concurs halike, calls_concur halike⟩
  · rw [Text.normaliseLines, String.toList_ofList]
    exact Text.not_mem_replaceReturns _

theorem unended_rejected :
    compile { programName := "a.s" } (Text.normaliseLines "Output(7);\nOutput(7)") =
      .error (.rejected ⟨.missingSemicolon, ⟨2, 10⟩⟩) := by
  have htokens : tokenize (Text.normaliseLines "Output(7);\nOutput(7)") = .ok
      [⟨.identifier, "Output", ⟨1, 1⟩⟩, ⟨.leftParen, "(", ⟨1, 7⟩⟩, ⟨.intLiteral, "7", ⟨1, 8⟩⟩,
        ⟨.rightParen, ")", ⟨1, 9⟩⟩, ⟨.semicolon, ";", ⟨1, 10⟩⟩,
        ⟨.identifier, "Output", ⟨2, 1⟩⟩, ⟨.leftParen, "(", ⟨2, 7⟩⟩, ⟨.intLiteral, "7", ⟨2, 8⟩⟩,
        ⟨.rightParen, ")", ⟨2, 9⟩⟩, ⟨.endOfText, "", ⟨2, 10⟩⟩] := by
    cbv
  rw [compile, htokens]
  rfl

/-- The second statement is not ended.  That is reported at its place in the second line, also where
a carriage return ends the first. -/
theorem line_ends_invisible_unended :
    '\r' ∉ "Output(7);\nOutput(7)".toList ∧
      Text.LineEnd.carriage.write "Output(7);\nOutput(7)" = "Output(7);\rOutput(7)" ∧
      (runOn {} (bench.set ["a.rl"] "Output(7);\nOutput(7)".toUTF8)
          ["a.rl", "-o", "out/a.s"]).2.err =
        "a.rl:2:10: error: Expected ';' at end of statement\n" ∧
      (runOn {} (bench.set ["a.rl"] "Output(7);\rOutput(7)".toUTF8)
          ["a.rl", "-o", "out/a.s"]).2.err =
        "a.rl:2:10: error: Expected ';' at end of statement\n" := by
  have htext : '\r' ∉ "Output(7);\nOutput(7)".toList := by decide
  have hwrite : Text.LineEnd.carriage.write "Output(7);\nOutput(7)" = "Output(7);\rOutput(7)" := rfl
  have hs : settings false ["a.rl", "-o", "out/a.s"] =
      .ok { source := some "a.rl", output := some "out/a.s" } :=
    settings_output rfl rfl (by decide) (by decide)
  have hprints := Host.print_of_console {} Host.ample_default.prints
  have herr : (runOn {} (bench.set ["a.rl"] "Output(7);\nOutput(7)".toUTF8)
      ["a.rl", "-o", "out/a.s"]).2.err = "a.rl:2:10: error: Expected ';' at end of statement\n" :=
    (runOn_fails {} hs rfl (Text.Utf8.decode_toUTF8 _) (hprints _ _) rfl
      unended_rejected).2
  have hruns := (line_ends_invisible.1 bench ["a.rl"] _ .carriage htext).1 {}
    ["a.rl", "-o", "out/a.s"]
  rw [hwrite] at hruns
  exact ⟨htext, hwrite, herr, (congrArg Result.err hruns.result).symm.trans herr⟩

end CommandLine
end Risclet
