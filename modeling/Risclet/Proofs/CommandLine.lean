import Risclet.CommandLine.Run
import Risclet.Proofs.FileTree
import Risclet.Proofs.Job

/-! # Runs of the compiler

What a run does follows from what compiling makes of the text in its source file.  Without a stage
to show, the run writes the assembler text that compiling makes, or reports its failure; otherwise
it prints the earliest stage that is asked for (`run_agrees_with_compile`).  For this the host has
to take what it is given to print and to store, and an output or a name that is empty counts as not
given.

The places where agreement ends are runs too: where the host stores only a part of the text, or
cannot encode it, that part is left in the output, and the status says so (`runOn_short`,
`runOn_unencoded`).
-/
namespace Risclet

/-- The bytes of a text are read as this text. -/
theorem Text.Utf8.decode_toUTF8 (s : String) : decode s.toUTF8 = .ok s := by
  have hvalid : s.toUTF8.IsValidUTF8 := s.isValidUTF8
  have hread : String.fromUTF8? s.toUTF8 = some s := by
    rw [String.fromUTF8?, dif_pos hvalid]
    rfl
  rw [decode, hread]

namespace CommandLine

/-! ## Settings and results -/

/-- The job that settings describe: an output or a name that is not given, or empty, is derived from
the source or the output. -/
structure Settings.Describes (s : Settings) (job : Job) : Prop where
  source : s.source = some job.source
  output : job.output = given s.output (Path.defaultOutput job.source)
  emit : job.emit = s.emit
  options : job.options =
    { strict := !s.permissive, programName := given s.programName (Path.baseName job.output) }

/-- Arguments that are accepted have a source among them. -/
theorem settings_describes {keepsDashes : Bool} {arguments : List String} {s : Settings}
    (h : settings keepsDashes arguments = .ok s) : s.Describes s.job := by
  have hsource : s.source.isSome = true := by
    unfold settings at h
    split at h
    · cases h
    · split at h
      · cases h
      · split at h
        · cases h
        · next hsome =>
          split at h
          · cases h
            simpa [Option.isSome_iff_ne_none] using hsome
          · cases h
  obtain ⟨source, hs⟩ := Option.isSome_iff_exists.mp hsource
  refine ⟨?_, rfl, rfl, rfl⟩
  simp [Settings.job, hs]

section Host
variable {host : Host} {arguments : List String}

theorem runOn_of_settings {s : Settings} (h : settings host.keepsDashes arguments = .ok s)
    {t after : FileTree} {printed : String} {trouble? : Option Trouble}
    (hrun : s.job.runOn host t = (after, printed, trouble?)) :
    runOn host t arguments = (after, result s.job.source printed trouble?) := by
  simp only [runOn, h, hrun]

theorem runOn_of_stop {stop : Stop} (h : settings host.keepsDashes arguments = .error stop)
    (t : FileTree) : runOn host t arguments = (t, stop.result) := by
  simp only [runOn, h]

end Host

theorem status_result_some (source printed : String) (e : Trouble) :
    (result source printed (some e)).status ≠ 0 := by
  have hrefusal : ∀ r, (refusalMessage r).1 ≠ 0 := by
    intro r
    cases r <;> simp [refusalMessage]
  have hjob : ∀ e, (jobMessage source e).1 ≠ 0 := by
    intro e
    unfold jobMessage
    split
    · simp
    · simp
    · split <;> simp
    · simp
  cases e with
  | job e => exact hjob e
  | refused r => exact hrefusal r

/-- How a run on `source` ends that the failure of a stage has stopped. -/
def Result.Reports (r : Result) (source : String) : Failure → Prop
  | .rejected e => r.status = 1 ∧ r.err = e.report.located (some source) ++ "\n"
  | .defect _ => r.status = 2

theorem result_reports (source printed : String) (f : Failure) :
    (result source printed (some (.job (.failure f)))).Reports source f := by
  cases f with
  | rejected e => exact ⟨rfl, rfl⟩
  | defect d => rfl

theorem Result.Reports.status_ne_zero {r : Result} {source : String} {f : Failure}
    (h : r.Reports source f) : r.status ≠ 0 := by
  cases f with
  | rejected e =>
    have := h.1
    omega
  | defect d =>
    have : r.status = 2 := h
    omega

/-! ## Agreement with compiling -/

section Agreement
variable (host : Host) {t : FileTree} {arguments : List String} {s : Settings} {bytes : ByteArray}
  {text : String} (hs : settings host.keepsDashes arguments = .ok s)
  (hread : host.read t s.job.source = .ok bytes)
  (htext : Text.Utf8.decode bytes = .ok text)
  (hprints : (host.print "" (s.job.plan (.ok bytes)).printed).2 = none)
include hread htext hprints

/-- The job goes on to write what has been compiled. -/
theorem job_compiles {c : Compilation} (hemit : s.emit.earliest? = none)
    (hc : compile s.job.options (Text.normaliseLines text) = .ok c) :
    (s.job.plan (.ok bytes)).ending = .write s.job.output c.assembly s.job.farewell ∧
      s.job.runOn host t = host.write t (String.join (s.job.plan (.ok bytes)).printed) s.job.output
        c.assembly s.job.farewell := by
  have hending : (s.job.plan (.ok bytes)).ending =
      .write s.job.output c.assembly s.job.farewell := by
    rw [Job.plan_of_text htext, Job.ending_planText (Emit.earliest?_eq_none.mp hemit), hc]
    rfl
  rw [← hread] at hprints hending ⊢
  exact ⟨hending, Job.runOn_of_write hprints hending⟩

include hs

/-- A stage that fails is reported. -/
theorem runOn_reports {f : Failure}
    (h : (s.job.planText (Text.normaliseLines text)).ending = .failed (.job (.failure f))) :
    (runOn host t arguments).2.Reports s.job.source f := by
  rw [← Job.plan_of_text htext, ← hread] at h
  rw [← hread] at hprints
  rw [runOn_of_settings hs (Job.runOn_of_failed hprints h)]
  exact result_reports _ _ _

theorem runOn_fails {f : Failure} (hemit : s.emit.earliest? = none)
    (hf : compile s.job.options (Text.normaliseLines text) = .error f) :
    (runOn host t arguments).2.Reports s.job.source f := by
  refine runOn_reports host hs hread htext hprints ?_
  rw [Job.ending_planText (Emit.earliest?_eq_none.mp hemit), hf]
  rfl

theorem runOn_shows {stage : Stage} {shown : String} (hemit : s.emit.earliest? = some stage)
    (h : stage.shown s.job.options (Text.normaliseLines text) = .ok shown) :
    (runOn host t arguments).2.status = 0 ∧ (runOn host t arguments).2.out = shown := by
  obtain ⟨texts, htexts, rfl⟩ := Outcome.map_eq_ok.mp (stage.shown_eq _ _ ▸ h)
  have hplan : s.job.plan (.ok bytes) = ⟨texts, .shown⟩ := by
    rw [Job.plan_of_text htext, Job.planText_shown hemit, htexts]
    rfl
  rw [← hread] at hprints hplan
  rw [runOn_of_settings hs (Job.runOn_of_shown hprints (by rw [hplan])), hplan]
  exact ⟨rfl, rfl⟩

section Writing
variable {opened : FileTree} {names : List String} {c : Compilation}
  (hemit : s.emit.earliest? = none) (hc : compile s.job.options (Text.normaliseLines text) = .ok c)
  (hcreate : host.create t s.job.output = .ok (names, opened))
include hemit hc hcreate

/-- What writing leaves in the file is read from the output path, and the run reports what writing
was refused. -/
theorem runOn_stored {stored : ByteArray} {printed : String} {trouble? : Option Trouble}
    (hwrite : host.write t (String.join (s.job.plan (.ok bytes)).printed) s.job.output c.assembly
      s.job.farewell = (t.set names stored, printed, trouble?)) :
    (runOn host t arguments).2 = result s.job.source printed trouble? ∧
      (runOn host t arguments).1.read s.job.output = .ok stored := by
  obtain ⟨-, hrun⟩ := job_compiles host hread htext hprints hemit hc
  rw [runOn_of_settings hs (hrun.trans hwrite)]
  exact ⟨rfl, FileTree.read_set (Host.create_eq_ok.mp hcreate).2.1 _⟩

/-- An assembler text that is not stored to its end leaves its beginning in the output. -/
theorem runOn_short {count : Nat} {f : SystemFault}
    (hhalf : host.halves.fault? c.assembly.toList = none)
    (hshort : host.short names c.assembly.toUTF8 = some (count, f)) :
    (runOn host t arguments).2.status = 1 ∧
      (runOn host t arguments).1.read s.job.output = .ok (c.assembly.toUTF8.extract 0 count) := by
  obtain ⟨hresult, hstored⟩ := runOn_stored host hs hread htext hprints hemit hc hcreate
    (Host.write_short hcreate hhalf hshort)
  rw [hresult]
  exact ⟨rfl, hstored⟩

/-- An assembler text with a half in it leaves the output empty. -/
theorem runOn_unencoded {f : Text.EncodeFault}
    (hhalf : host.halves.fault? c.assembly.toList = some f) :
    (runOn host t arguments).2.status = 2 ∧
      (runOn host t arguments).1.read s.job.output = .ok ByteArray.empty := by
  obtain ⟨hresult, hstored⟩ := runOn_stored host hs hread htext hprints hemit hc hcreate
    (Host.write_unencoded hcreate hhalf)
  rw [hresult]
  exact ⟨rfl, hstored⟩

theorem runOn_writes
    (hstores : ∀ path text farewell,
      (s.job.plan (.ok bytes)).ending = .write path text farewell →
        host.Fills names (String.join (s.job.plan (.ok bytes)).printed) text farewell
          text.toUTF8 none) :
    (runOn host t arguments).2.status = 0 ∧
      (runOn host t arguments).1.read s.job.output = .ok c.assembly.toUTF8 := by
  obtain ⟨hending, -⟩ := job_compiles host hread htext hprints hemit hc
  obtain ⟨hresult, hstored⟩ := runOn_stored host hs hread htext hprints hemit hc hcreate
    (Host.write_of_fills hcreate (hstores _ _ _ hending))
  rw [hresult]
  exact ⟨rfl, hstored⟩

end Writing
end Agreement

/-- **The command line agrees with compiling.**  Take arguments that are accepted, whose source is a
file with a text and whose output can be opened, on a host that takes all that it is given to print
and to store.  If no stage is to be shown, the run writes the assembler text that compiling makes of
the source and ends with status zero, or it reports that compiling fails.  Otherwise it prints the
earliest stage that is to be shown, as compiling makes it, and it ends with status zero exactly if
the stages up to this one succeed. -/
theorem run_agrees_with_compile (host : Host) {t opened : FileTree} {arguments : List String}
    {s : Settings} {bytes : ByteArray} {text : String} {names : List String}
    (hs : settings host.keepsDashes arguments = .ok s)
    (hread : host.read t s.job.source = .ok bytes) (htext : Text.Utf8.decode bytes = .ok text)
    (hcreate : host.create t s.job.output = .ok (names, opened))
    (htakes : host.Takes names (s.job.plan (.ok bytes))) :
    s.Describes s.job ∧
      (s.emit.earliest? = none →
        (∀ c, compile s.job.options (Text.normaliseLines text) = .ok c →
          (runOn host t arguments).2.status = 0 ∧
            (runOn host t arguments).1.read s.job.output = .ok c.assembly.toUTF8) ∧
        ∀ f, compile s.job.options (Text.normaliseLines text) = .error f →
          (runOn host t arguments).2.Reports s.job.source f) ∧
      ∀ stage, s.emit.earliest? = some stage →
        (∀ shown, stage.shown s.job.options (Text.normaliseLines text) = .ok shown →
          (runOn host t arguments).2.out = shown) ∧
        (∀ c, compile s.job.options (Text.normaliseLines text) = .ok c →
          (runOn host t arguments).2.out = c.shown stage) ∧
        ((runOn host t arguments).2.status = 0 ↔
          ∃ shown, stage.shown s.job.options (Text.normaliseLines text) = .ok shown) := by
  have hprints := htakes.prints
  refine ⟨settings_describes hs, fun hemit => ⟨?_, ?_⟩, fun stage hemit => ⟨?_, ?_, ?_, ?_⟩⟩
  · intro c hc
    exact runOn_writes host hs hread htext hprints hemit hc hcreate htakes.stores
  · intro f hf
    exact runOn_fails host hs hread htext hprints hemit hf
  · intro shown hshown
    exact (runOn_shows host hs hread htext hprints hemit hshown).2
  · intro c hc
    exact (runOn_shows host hs hread htext hprints hemit (Stage.shown_of_compile hc stage)).2
  · intro hstatus
    cases hshown : stage.shown s.job.options (Text.normaliseLines text) with
    | ok shown => exact ⟨shown, rfl⟩
    | error f =>
      have htexts : stage.texts s.job.options (Text.normaliseLines text) = .error f :=
        Outcome.map_eq_error.mp (stage.shown_eq _ _ ▸ hshown)
      have hreports : (runOn host t arguments).2.Reports s.job.source f := by
        refine runOn_reports host hs hread htext hprints ?_
        rw [Job.planText_shown hemit, htexts]
        rfl
      exact absurd hstatus hreports.status_ne_zero
  · rintro ⟨shown, hshown⟩
    exact (runOn_shows host hs hread htext hprints hemit hshown).1

/-- The settings for a source and an output. -/
theorem settings_output {keepsDashes : Bool} {source output : String}
    (hs : classify source = .ok (.plain source)) (ho : classify output = .ok (.plain output))
    (hs' : source ≠ "--") (ho' : output ≠ "--") :
    settings keepsDashes [source, "-o", output] =
      .ok { source := some source, output := some output } := by
  have hdash : classify "-o" = .ok (.option .output true none) := rfl
  have hwords : words [source, "-o", output] =
      .ok [.plain source, .option .output true none, .plain output] := by
    simp [words, hs, ho, hdash, hs', ho']
  rw [settings, hwords]
  simp [Settings.take, packed, bare, nextPlain, Settings.applyAll, Settings.apply,
    Settings.takePlain, Opt.takesValue]

/-- Two sources, one with paired line ends and one whose statement is not ended, and an output from
before. -/
def bench : FileTree :=
  ⟨[["out"]], [(["a.rl"], "Output(7);\r\n".toUTF8), (["b.rl"], "Output(7)".toUTF8),
    (["out", "a.s"], "old".toUTF8)]⟩

theorem read_bench (host : Host) (h : host.denies .reading "a.rl" = none) :
    host.read bench "a.rl" = .ok "Output(7);\r\n".toUTF8 :=
  Host.read_eq_ok.mpr ⟨h, rfl⟩

theorem create_bench (host : Host) (h : host.denies .writing "out/a.s" = none) :
    host.create bench "out/a.s" = .ok (["out", "a.s"], bench.set ["out", "a.s"] ByteArray.empty) :=
  Host.create_eq_ok.mpr ⟨h, rfl, rfl⟩

theorem bench_compiles (programName : String) :
    ∃ c, compile { programName } (Text.normaliseLines "Output(7);\r\n") = .ok c := by
  have htokens : tokenize (Text.normaliseLines "Output(7);\r\n") = .ok
      [⟨.identifier, "Output", ⟨1, 1⟩⟩, ⟨.leftParen, "(", ⟨1, 7⟩⟩, ⟨.intLiteral, "7", ⟨1, 8⟩⟩,
        ⟨.rightParen, ")", ⟨1, 9⟩⟩, ⟨.semicolon, ";", ⟨1, 10⟩⟩, ⟨.endOfText, "", ⟨2, 1⟩⟩] := by
    cbv
  rw [compile, htokens]
  exact ⟨_, rfl⟩

/-- The first source is compiled, and the output is replaced. -/
theorem run_agrees_with_compile_pairs :
    ∃ s c opened, settings false ["a.rl", "-o", "out/a.s"] = .ok s ∧ s.emit.earliest? = none ∧
      Host.read {} bench s.job.source = .ok "Output(7);\r\n".toUTF8 ∧
      Text.Utf8.decode "Output(7);\r\n".toUTF8 = .ok "Output(7);\r\n" ∧
      Host.create {} bench s.job.output = .ok (["out", "a.s"], opened) ∧
      Host.Takes {} ["out", "a.s"] (s.job.plan (.ok "Output(7);\r\n".toUTF8)) ∧
      compile s.job.options (Text.normaliseLines "Output(7);\r\n") = .ok c ∧
      (runOn {} bench ["a.rl", "-o", "out/a.s"]).2.status = 0 ∧
      (runOn {} bench ["a.rl", "-o", "out/a.s"]).1.read s.job.output = .ok c.assembly.toUTF8 := by
  obtain ⟨c, hc⟩ := bench_compiles "a.s"
  have hs : settings false ["a.rl", "-o", "out/a.s"] =
      .ok { source := some "a.rl", output := some "out/a.s" } :=
    settings_output rfl rfl (by decide) (by decide)
  have hread := read_bench {} rfl
  have htext := Text.Utf8.decode_toUTF8 "Output(7);\r\n"
  have hcreate := create_bench {} rfl
  have htakes := Host.ample_default.takes ["out", "a.s"]
  have hrun := (run_agrees_with_compile {} hs hread htext hcreate (htakes _)).2.1 rfl
  exact ⟨_, c, _, hs, rfl, hread, htext, hcreate, htakes _, hc, hrun.1 c hc⟩

/-- The heading of a text that compiling makes begins with a rule and the program's name. -/
theorem assembly_eq_append {o : Options} {source : String} {c : Compilation}
    (h : compile o source = .ok c) :
    ∃ rest, c.assembly.toList =
      "// ".toList ++ List.replicate 59 '─' ++ "\n// ".toList ++ o.programName.toList ++
        " (Main Program)".toList ++ rest := by
  obtain ⟨-, -, hgenerate⟩ := compile_eq_ok.mp h
  obtain ⟨-, -, hemit⟩ := generate_eq_ok.mp hgenerate
  obtain ⟨p, -, htext⟩ := Outcome.map_eq_ok.mp hemit
  have hlines : ∃ more, p.lines o = ("// " ++ String.ofList (List.replicate 59 '─')) ::
      ("// " ++ o.programName ++ " (Main Program)") :: more := ⟨_, rfl⟩
  obtain ⟨more, hmore⟩ := hlines
  refine ⟨'\n' :: (Text.unlines more).toList, ?_⟩
  rw [← htext, Assembly.Program.text, hmore]
  simp [Text.unlines]

/-- The settings for a source, an output and a name. -/
theorem settings_programName {source output name : String}
    (hs : classify source = .ok (.plain source)) (ho : classify output = .ok (.plain output))
    (hn : classify name = .ok (.plain name)) (hs' : source ≠ "--") (ho' : output ≠ "--")
    (hn' : name ≠ "--") (keepsDashes : Bool) :
    settings keepsDashes [source, "-o", output, "--program-name", name] =
      .ok { source := some source, output := some output, programName := some name } := by
  have hdash : classify "-o" = .ok (.option .output true none) := rfl
  have hlong : classify "--program-name" = .ok (.option .programName false none) := rfl
  have hwords : words [source, "-o", output, "--program-name", name] =
      .ok [.plain source, .option .output true none, .plain output,
        .option .programName false none, .plain name] := by
    simp [words, hs, ho, hn, hdash, hlong, hs', ho', hn']
  rw [settings, hwords]
  simp [Settings.take, packed, bare, nextPlain, Settings.applyAll, Settings.apply,
    Settings.takePlain, Opt.takesValue]

/-- Agreement needs both conditions.  An empty name is not the one in the heading.  And a half in
the name is compiled like any other text, but the run cannot store it: it ends with status two, when
the output is empty already. -/
theorem names_without_agreement :
    (∃ c bytes, compile { programName := "" } (Text.normaliseLines "Output(7);\r\n") = .ok c ∧
      (runOn {} bench ["a.rl", "-o", "out/a.s", "--program-name", ""]).2.status = 0 ∧
      (runOn {} bench ["a.rl", "-o", "out/a.s", "--program-name", ""]).1.read "out/a.s" =
        .ok bytes ∧
      bytes ≠ c.assembly.toUTF8) ∧
    ∃ c, compile { programName := "\uE000" } (Text.normaliseLines "Output(7);\r\n") = .ok c ∧
      (runOn { halves := .firstOfAll } bench
        ["a.rl", "-o", "out/a.s", "--program-name", "\uE000"]).2.status = 2 ∧
      (runOn { halves := .firstOfAll } bench
        ["a.rl", "-o", "out/a.s", "--program-name", "\uE000"]).1.read "out/a.s" =
          .ok ByteArray.empty := by
  have htext := Text.Utf8.decode_toUTF8 "Output(7);\r\n"
  constructor
  · obtain ⟨c, hc⟩ := bench_compiles ""
    obtain ⟨named, hnamed⟩ := bench_compiles "a.s"
    have hs : settings false ["a.rl", "-o", "out/a.s", "--program-name", ""] =
        .ok { source := some "a.rl", output := some "out/a.s", programName := some "" } :=
      settings_programName rfl rfl rfl (by decide) (by decide) (by decide) false
    have htakes := Host.ample_default.takes ["out", "a.s"]
    obtain ⟨hstatus, hread⟩ := runOn_writes {} hs (read_bench {} rfl) htext (htakes _).prints rfl
      hnamed (create_bench {} rfl) (htakes _).stores
    refine ⟨c, _, hc, hstatus, hread, fun heq => ?_⟩
    obtain ⟨rest, hrest⟩ := assembly_eq_append hc
    obtain ⟨more, hmore⟩ := assembly_eq_append hnamed
    rw [← String.toByteArray_inj.mp heq, hmore] at hrest
    -- What follows the rule differs in its first character.
    simp at hrest
  · obtain ⟨c, hc⟩ := bench_compiles "\uE000"
    have hs : settings false ["a.rl", "-o", "out/a.s", "--program-name", "\uE000"] =
        .ok { source := some "a.rl", output := some "out/a.s", programName := some "\uE000" } :=
      settings_programName rfl rfl rfl (by decide) (by decide) (by decide) false
    let host : Host := { halves := .firstOfAll }
    obtain ⟨f, hf⟩ : ∃ f, host.halves.fault? c.assembly.toList = some f := by
      rw [← Option.ne_none_iff_exists', Ne, Text.Halves.fault?_eq_none]
      intro hall
      obtain ⟨rest, hrest⟩ := assembly_eq_append hc
      have hhalf := hall '\uE000' (by simp [hrest])
      exact absurd hhalf (by decide)
    have hprints := host.print_of_console fun _ _ => rfl
    exact ⟨c, hc, runOn_unencoded host hs (read_bench host rfl) htext (hprints _ _) rfl hc
      (create_bench host rfl) hf⟩

end CommandLine
end Risclet
