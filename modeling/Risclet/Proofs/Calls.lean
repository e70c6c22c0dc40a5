import Risclet.Proofs.CommandLine

/-! # Sequences of runs

A run that does not end well, or that shows a stage, leaves all files as they are, unless the host
refuses something after the output has been opened; then the output holds as much of the assembler
text as was stored.  Any other run changes its output file only.  These are the cases of what one
run does (`call_cases`), and they hold along every sequence of runs, each on the files that the one
before it leaves (`runs_write_output_or_nothing`).
-/
namespace Risclet
namespace CommandLine

/-- A run of the compiler on a host, with the files that it finds and those that it leaves. -/
structure Call where
  host : Host
  before : FileTree
  arguments : List String
  after : FileTree
  result : Result

/-- What the arguments of a run ask for. -/
def Call.settings (r : Call) : Except Stop Settings :=
  CommandLine.settings r.host.keepsDashes r.arguments

/-- The run on a host and a file tree. -/
def call (host : Host) (t : FileTree) (arguments : List String) : Call :=
  ⟨host, t, arguments, (runOn host t arguments).1, (runOn host t arguments).2⟩

theorem after_call (host : Host) (t : FileTree) (arguments : List String) :
    (call host t arguments).after = (runOn host t arguments).1 := rfl

theorem result_call (host : Host) (t : FileTree) (arguments : List String) :
    (call host t arguments).result = (runOn host t arguments).2 := rfl

theorem settings_call (host : Host) (t : FileTree) (arguments : List String) :
    (call host t arguments).settings = settings host.keepsDashes arguments := rfl

/-- Runs one after the other, each on a host and on the files that the one before it leaves. -/
def calls (t : FileTree) : List (Host × List String) → List Call
  | [] => []
  | (host, arguments) :: more => call host t arguments :: calls (call host t arguments).after more

/-- The files that a sequence of runs leaves. -/
def leaves (t : FileTree) : List (Host × List String) → FileTree
  | [] => t
  | (host, arguments) :: more => leaves (call host t arguments).after more

/-- The run compiles its source, as the source was before, and opens its output, and it changes
nothing but the output. -/
structure Call.Opens (r : Call) (job : Job) (c : Compilation) (names : List String) : Prop where
  source : ∃ bytes text, r.host.read r.before job.source = .ok bytes ∧
    Text.Utf8.decode bytes = .ok text ∧ compile job.options (Text.normaliseLines text) = .ok c
  target : r.before.target job.output = .ok names
  others : ∀ other, other ≠ names → r.after.content? other = r.before.content? other
  dirs : r.after.dirs = r.before.dirs

/-- The run writes what compiling makes of its source to its output. -/
structure Call.Writes (r : Call) (job : Job) (c : Compilation) (names : List String) : Prop
    extends r.Opens job c names where
  read : r.after.read job.output = .ok c.assembly.toUTF8
  content : r.after.content? names = some c.assembly.toUTF8

/-- The run opens its output, and the host refuses something then: the output holds what the host
has stored of the text by that time. -/
structure Call.Spoils (r : Call) (job : Job) (c : Compilation) (names : List String) : Prop
    extends r.Opens job c names where
  content : ∃ out bytes refusal,
    r.host.Fills names out c.assembly job.farewell bytes (some refusal) ∧
      r.after.content? names = some bytes ∧ r.result.status = (refusalMessage refusal).1

/-- **What a run does to a file tree.**  It leaves the tree as it is, because something is wrong,
help is asked for or a stage is to be shown; or it opens its output, and ends well and has written
it, or does not end well. -/
theorem call_cases (host : Host) (t : FileTree) (arguments : List String) :
    ((call host t arguments).after = t ∧ ((call host t arguments).result.status ≠ 0 ∨
        ∀ s, settings host.keepsDashes arguments = .ok s → s.emit.any = true)) ∨
      ∃ s c names, settings host.keepsDashes arguments = .ok s ∧ s.emit.any = false ∧
        ((call host t arguments).result.status = 0 ∧
            (call host t arguments).Writes s.job c names ∨
          (call host t arguments).result.status ≠ 0 ∧
            (call host t arguments).Spoils s.job c names) := by
  unfold call
  cases hs : settings host.keepsDashes arguments with
  | error stop =>
    rw [runOn_of_stop hs]
    exact .inl ⟨rfl, .inr (by rintro s ⟨⟩)⟩
  | ok s =>
    rcases s.job.runOn_cases host t with ⟨printed, e, hrun⟩ | ⟨hany, printed, hrun⟩ |
      ⟨hany, bytes, text, c, names, after, hread, htext, hc, hcreate,
        stored, refusal?, out, printed, hfills, hrun⟩
    · rw [runOn_of_settings hs hrun]
      exact .inl ⟨rfl, .inl (status_result_some _ _ _)⟩
    · rw [runOn_of_settings hs hrun]
      refine .inl ⟨rfl, .inr ?_⟩
      rintro _ ⟨⟩
      exact hany
    · rw [runOn_of_settings hs hrun]
      have htarget := (Host.create_eq_ok.mp hcreate).2.1
      have hopens : (Call.mk host t arguments (t.set names stored)
          (result s.job.source printed (refusal?.map .refused))).Opens s.job c names := by
        refine ⟨⟨bytes, text, hread, htext, hc⟩, htarget, fun other hother => ?_, rfl⟩
        simp [hother]
      refine .inr ⟨s, c, names, rfl, hany, ?_⟩
      cases refusal? with
      | none =>
        obtain ⟨-, -, -, rfl⟩ := Host.fills_none.mp hfills
        exact .inl ⟨rfl, hopens, FileTree.read_set htarget _, by simp⟩
      | some refusal =>
        exact .inr ⟨status_result_some _ _ _, hopens, out, stored, refusal, hfills, by simp, rfl⟩

theorem exists_of_mem_calls {t : FileTree} {commands : List (Host × List String)} {r : Call}
    (h : r ∈ calls t commands) : ∃ host before arguments, r = call host before arguments := by
  induction commands generalizing t with
  | nil => cases h
  | cons command more ih =>
    obtain ⟨host, arguments⟩ := command
    rcases List.mem_cons.mp h with rfl | h
    · exact ⟨host, t, arguments, rfl⟩
    · exact ih h

/-- A file to which no output path leads keeps its content along a sequence of runs. -/
theorem content?_leaves {t : FileTree} {commands : List (Host × List String)} {names : List String}
    (h : ∀ r ∈ calls t commands, ∀ s, r.settings = .ok s →
      r.before.target s.job.output ≠ .ok names) :
    (leaves t commands).content? names = t.content? names := by
  induction commands generalizing t with
  | nil => rfl
  | cons command more ih =>
    obtain ⟨host, arguments⟩ := command
    obtain ⟨hfirst, hmore⟩ := List.forall_mem_cons.mp h
    rw [leaves, ih hmore]
    rcases call_cases host t arguments with ⟨hkept, -⟩ | ⟨s, c, file, hs, -, hopened⟩
    · rw [hkept]
    · have hopens : (call host t arguments).Opens s.job c file :=
        hopened.elim (·.2.toOpens) (·.2.toOpens)
      refine hopens.others names ?_
      rintro rfl
      exact hfirst s hs hopens.target

/-- A host that takes everything does not spoil an output. -/
theorem Call.Spoils.not_ample {r : Call} {job : Job} {c : Compilation} {names : List String}
    (h : r.Spoils job c names) : ¬ r.host.Ample := by
  obtain ⟨out, bytes, refusal, hfills, -⟩ := h.content
  intro hample
  cases hample.fills hfills

/-- **A run writes its output file or nothing, unless the host fails it halfway.**  Along every
sequence of runs, a run whose arguments are wrong, that is asked for help or that shows a stage
leaves all files as they are.  So does a run that ends with a status other than zero, but for one
case: the source has been compiled and the output opened, and then the host has refused to encode
the text, to store all of it or to print the last line.  The output then holds what was stored, and
every other file is as before; on a host that takes everything this does not happen.  Any other run
has compiled its source; the file at its output path then holds the assembler text, and every other
file is as before.  So a file to which no output path leads is the same at the end. -/
theorem runs_write_output_or_nothing (t : FileTree) (commands : List (Host × List String)) :
    (∀ r ∈ calls t commands,
      (∀ stop, r.settings = .error stop → r.after = r.before) ∧
      (r.host.Ample → r.result.status ≠ 0 → r.after = r.before) ∧
      ∀ s, r.settings = .ok s →
        (s.emit.any = true → r.after = r.before) ∧
        (r.result.status ≠ 0 → r.after = r.before ∨ ∃ c names, r.Spoils s.job c names) ∧
        (s.emit.any = false → r.result.status = 0 →
          s.Describes s.job ∧ ∃ c names, r.Writes s.job c names)) ∧
    ∀ names, (∀ r ∈ calls t commands, ∀ s, r.settings = .ok s →
        r.before.target s.job.output ≠ .ok names) →
      (leaves t commands).content? names = t.content? names := by
  refine ⟨fun r hr => ?_, fun names h => content?_leaves h⟩
  obtain ⟨host, before, arguments, rfl⟩ := exists_of_mem_calls hr
  rw [settings_call]
  rcases call_cases host before arguments with ⟨hkept, hidle⟩ | ⟨s, c, names, hs, hany, hopened⟩
  · refine ⟨fun _ _ => hkept, fun _ _ => hkept, fun s hs =>
      ⟨fun _ => hkept, fun _ => .inl hkept, fun hany hstatus => ?_⟩⟩
    rcases hidle with hwrong | hemit
    · exact absurd hstatus hwrong
    · rw [hemit s hs] at hany
      cases hany
  · refine ⟨fun stop hstop => ?_, fun hample hwrong => ?_, fun s' hs' => ?_⟩
    · rw [hs] at hstop
      cases hstop
    · rcases hopened with ⟨hstatus, -⟩ | ⟨-, hspoils⟩
      · exact absurd hstatus hwrong
      · exact absurd hample hspoils.not_ample
    · obtain rfl : s = s' := Except.ok.inj (hs.symm.trans hs')
      refine ⟨fun hemit => ?_, fun hwrong => ?_, fun _ hstatus => ?_⟩
      · rw [hany] at hemit
        cases hemit
      · rcases hopened with ⟨hzero, -⟩ | ⟨-, hspoils⟩
        · exact absurd hzero hwrong
        · exact .inr ⟨c, names, hspoils⟩
      · rcases hopened with ⟨-, hwrites⟩ | ⟨hwrong, -⟩
        · exact ⟨settings_describes hs, c, names, hwrites⟩
        · exact absurd hstatus hwrong

theorem bench_rejected :
    compile { programName := "a.s" } (Text.normaliseLines "Output(7)") =
      .error (.rejected ⟨.missingSemicolon, ⟨1, 10⟩⟩) := by
  have htokens : tokenize (Text.normaliseLines "Output(7)") = .ok
      [⟨.identifier, "Output", ⟨1, 1⟩⟩, ⟨.leftParen, "(", ⟨1, 7⟩⟩, ⟨.intLiteral, "7", ⟨1, 8⟩⟩,
        ⟨.rightParen, ")", ⟨1, 9⟩⟩, ⟨.endOfText, "", ⟨1, 10⟩⟩] := by
    cbv
  rw [compile, htokens]
  rfl

/-- The second source is rejected, and the output stays as it was until the first is compiled to the
same place. -/
theorem runs_write_output_or_nothing_retry :
    ∃ (failed done : Call) (c : Compilation),
      calls bench [({}, ["b.rl", "-o", "out/a.s"]), ({}, ["a.rl", "-o", "out/a.s"])] =
        [failed, done] ∧
      failed.result.status = 1 ∧ failed.after.content? ["out", "a.s"] = some "old".toUTF8 ∧
      compile { programName := "a.s" } (Text.normaliseLines "Output(7);\r\n") = .ok c ∧
      done.result.status = 0 ∧ done.after.content? ["out", "a.s"] = some c.assembly.toUTF8 := by
  have hruns := (runs_write_output_or_nothing bench
    [({}, ["b.rl", "-o", "out/a.s"]), ({}, ["a.rl", "-o", "out/a.s"])]).1
  have hfirst : settings false ["b.rl", "-o", "out/a.s"] =
      .ok { source := some "b.rl", output := some "out/a.s" } :=
    settings_output rfl rfl (by decide) (by decide)
  have hsecond : settings false ["a.rl", "-o", "out/a.s"] =
      .ok { source := some "a.rl", output := some "out/a.s" } :=
    settings_output rfl rfl (by decide) (by decide)
  have htakes := Host.ample_default.takes ["out", "a.s"]
  have hfailed : (call {} bench ["b.rl", "-o", "out/a.s"]).result.status = 1 := by
    rw [result_call]
    exact (runOn_fails {} hfirst rfl (Text.Utf8.decode_toUTF8 "Output(7)")
      (htakes _).prints rfl bench_rejected).1
  have hkept : (call {} bench ["b.rl", "-o", "out/a.s"]).after = bench :=
    (hruns _ List.mem_cons_self).2.1 Host.ample_default (by omega)
  have hcalls : calls bench [({}, ["b.rl", "-o", "out/a.s"]), ({}, ["a.rl", "-o", "out/a.s"])] =
      [call {} bench ["b.rl", "-o", "out/a.s"], call {} bench ["a.rl", "-o", "out/a.s"]] := by
    rw [calls, calls, hkept, calls]
  rw [hcalls] at hruns ⊢
  have htext := Text.Utf8.decode_toUTF8 "Output(7);\r\n"
  obtain ⟨c, hc⟩ := bench_compiles "a.s"
  have hdone : (call {} bench ["a.rl", "-o", "out/a.s"]).result.status = 0 := by
    rw [result_call]
    exact (runOn_writes {} hsecond (read_bench {} rfl) htext (htakes _).prints rfl hc
      (create_bench {} rfl) (htakes _).stores).1
  obtain ⟨-, c', names, hwrites⟩ :=
    ((hruns _ (List.mem_cons_of_mem _ List.mem_cons_self)).2.2 _ hsecond).2.2 rfl hdone
  obtain rfl : ["out", "a.s"] = names := Except.ok.inj hwrites.target
  obtain ⟨bytes, text, hread, htext', hc'⟩ := hwrites.source
  obtain rfl : "Output(7);\r\n".toUTF8 = bytes := Except.ok.inj hread
  obtain rfl := Except.ok.inj (htext.symm.trans htext')
  exact ⟨_, _, c', rfl, hfailed, by rw [hkept]; rfl, hc', hdone, hwrites.content⟩

/-- A host whose disk has no room for anything. -/
def fullDisk : Host where
  short _ _ := some (0, ⟨28, "No space left on device"⟩)

/-- On a full disk the run fails, and what the output held before is lost.  And where the output is
empty, the run ends well, but writes to another path, since the empty one leads nowhere. -/
theorem outputs_without_run :
    ((call fullDisk bench ["a.rl", "-o", "out/a.s"]).result.status = 1 ∧
      bench.read "out/a.s" = .ok "old".toUTF8 ∧
      (call fullDisk bench ["a.rl", "-o", "out/a.s"]).after.read "out/a.s" =
        .ok ByteArray.empty) ∧
    ∃ c, compile { programName := "a.s" } (Text.normaliseLines "Output(7);\r\n") = .ok c ∧
      (call {} bench ["a.rl", "-o", ""]).result.status = 0 ∧
      (call {} bench ["a.rl", "-o", ""]).after.read "" = .error ⟨.missing, ""⟩ ∧
      (call {} bench ["a.rl", "-o", ""]).after.read "a.s" = .ok c.assembly.toUTF8 := by
  obtain ⟨c, hc⟩ := bench_compiles "a.s"
  have htext := Text.Utf8.decode_toUTF8 "Output(7);\r\n"
  constructor
  · have hs : settings false ["a.rl", "-o", "out/a.s"] =
        .ok { source := some "a.rl", output := some "out/a.s" } :=
      settings_output rfl rfl (by decide) (by decide)
    have hprints := fullDisk.print_of_console fun _ _ => rfl
    have hwhole : fullDisk.halves.fault? c.assembly.toList = none :=
      (fullDisk.halves.fault?_eq_none).mpr fun _ _ => rfl
    obtain ⟨hstatus, hread⟩ := runOn_short fullDisk hs (read_bench fullDisk rfl) htext (hprints _ _)
      rfl hc (create_bench fullDisk rfl) hwhole rfl
    rw [result_call, after_call]
    refine ⟨hstatus, rfl, hread.trans (congrArg Except.ok ?_)⟩
    simp
  · have hs : settings false ["a.rl", "-o", ""] =
        .ok { source := some "a.rl", output := some "" } :=
      settings_output rfl rfl (by decide) (by decide)
    have hcreate : Host.create {} bench "a.s" =
        .ok (["a.s"], bench.set ["a.s"] ByteArray.empty) := rfl
    have htakes := Host.ample_default.takes ["a.s"]
    obtain ⟨hstatus, hread⟩ := runOn_writes {} hs (read_bench {} rfl) htext (htakes _).prints rfl hc
      hcreate (htakes _).stores
    have hnowhere : ∀ t : FileTree, t.read "" = .error ⟨.missing, ""⟩ := fun _ => rfl
    rw [result_call, after_call]
    exact ⟨c, hc, hstatus, hnowhere _, hread⟩

end CommandLine
end Risclet
