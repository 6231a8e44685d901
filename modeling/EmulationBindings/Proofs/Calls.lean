import EmulationBindings.CommandLine
import EmulationBindings.Proofs.Generation.Modes
import EmulationBindings.Proofs.Options.Accepted

/-!
# What a call runs

A call whose arguments are accepted is one run, of the request that its arguments and settings
make, and the end of that run as it is printed.  The one value that counts for nothing is the
separator: an option that it is attached to is given no value at all.
-/

namespace EmulationBindings.CommandLine

open EmulationBindings.Action EmulationBindings.Generation EmulationBindings.Options

def separator : Text := "--"

def failureLine (f : Failure) : Text :=
  "ERROR emulation_codegen.runner: " ++ f.stage.name ++ ": " ++ f.message ++ "\n"

/-- The call does what the run does and ends as the run ends: after a success the directives are
its standard output, and after a failure that stays empty and the last line of the other one says
why. -/
structure EndsAs (result : Result) (out : Except Stop Report × World) : Prop where
  calls : result.world.calls = out.2.calls
  disk : result.world.disk = out.2.disk
  returned : ∀ report, out.1 = .ok report →
    result.ending = .status 0 ∧ result.stdout = printed report.directives
  failed : ∀ f, out.1 = .error (.failed f) →
    result.ending = .status 1 ∧ result.stdout = [] ∧
      ∃ before, result.stderr = before ++ failureLine f
  refused : ∀ r, out.1 = .error (.refused r) → result.ending = .refused r ∧ result.stdout = []

section

variable {site : Site} {c : Choice} {d : Disk}

theorem line_runFailed (f : Failure) : (Event.runFailed f).line ++ "\n" = failureLine f := by
  have hstart : ("ERROR" ++ " " ++ "emulation_codegen.runner" ++ ": " : Text) =
      "ERROR emulation_codegen.runner: " := by decide
  have hline : (Event.runFailed f).line =
      ("ERROR" ++ " " ++ "emulation_codegen.runner" ++ ": " : Text) ++
        (f.stage.name ++ ": " ++ f.message) := rfl
  rw [hline, hstart]
  unfold failureLine
  simp only [List.append_assoc]

theorem shown_append_runFailed (verbose : Bool) (es : List Event) (f : Failure) :
    shown verbose (es ++ [.runFailed f]) = shown verbose es ++ failureLine f := by
  simp [shown, ← line_runFailed, Event.severity]

theorem endsAs_perform {given : Given Path} (hdirectory : c.directory = some given) :
    EndsAs (perform site c d) ((generate site c given).result { disk := d }) := by
  unfold perform
  rw [hdirectory]
  dsimp only
  cases (generate site c given).result { disk := d } with
  | mk last w =>
    cases last with
    | ok report =>
        refine ⟨rfl, rfl, ?_, by simp, by simp⟩
        rintro _ hreport
        obtain rfl := Except.ok.inj hreport
        exact ⟨rfl, rfl⟩
    | error stop =>
        cases stop with
        | failed f =>
            refine ⟨rfl, rfl, by simp, ?_, by simp⟩
            rintro _ hf
            obtain rfl := Stop.failed.inj (Except.error.inj hf)
            exact ⟨rfl, rfl, _, shown_append_runFailed c.verbose w.journal f⟩
        | refused r =>
            refine ⟨rfl, rfl, by simp, by simp, ?_⟩
            rintro _ hr
            obtain rfl := Stop.refused.inj (Except.error.inj hr)
            exact ⟨rfl, rfl⟩

theorem EndsAs.of_not_ok {result : Result} {out : Except Stop Report × World}
    (hends : EndsAs result out) (hout : ∀ report, out.1 ≠ .ok report) :
    result.stdout = [] ∧ result.ending ≠ .status 0 := by
  cases hlast : out.1 with
  | ok report => exact absurd hlast (hout report)
  | error stop =>
      cases stop with
      | failed f =>
          obtain ⟨hending, hstdout, -⟩ := hends.failed f hlast
          exact ⟨hstdout, by simp [hending]⟩
      | refused r =>
          obtain ⟨hending, hstdout⟩ := hends.refused r hlast
          exact ⟨hstdout, by simp [hending]⟩

/-- Without a directory the run only looks for the table, and never comes to its end. -/
theorem result_generate_nothing (site : Site) (c : Choice) (d : Disk) :
    ((generate site c .nothing).result { disk := d }).2.disk = d ∧
      ∀ report, ((generate site c .nothing).result { disk := d }).1 ≠ .ok report := by
  unfold generate
  cases c.tool with
  | nothing => simp
  | value tool =>
      have hdisk := (reads_survey site (request c tool (Path.ofText "[]")) { disk := d }).2
      simp only [result_bind]
      cases hsurvey : (survey site (request c tool (Path.ofText "[]"))).result { disk := d } with
      | mk last w =>
        rw [hsurvey] at hdisk
        cases last <;> simpa using hdisk

theorem run_of_parse {call : CommandLine} {loaded : Settings.Loaded}
    (hload : Settings.load call.environment d site.cwd = .ok loaded)
    (hparse : parse loaded.settings call.arguments = .ok c) :
    call.run site d =
      { perform site c d with
        stderr := loaded.unreadableLines.flatMap unreadableLine ++ (perform site c d).stderr } := by
  simp only [CommandLine.run, hload, hparse]

end

/-! ## The request of a call -/

theorem ofText_eq (v : Text) : Given.ofText v = if v = separator then .nothing else .value v := rfl

section

variable (s : Settings) (uses : List Use)

variable {s uses}

end

/-! ## Repeated options, and a separator for the report -/

end EmulationBindings.CommandLine
