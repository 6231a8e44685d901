import EmulationBindings.Proofs.Calls
import EmulationBindings.Proofs.Path.Text
import EmulationBindings.Proofs.Text.Digits

/-!
# The lines of the directives

A directive is meant to be one line, and it is one when what it names has no line feed in it.
Only the path of the table can have one, since its directory comes from the answer of the build
tool: then the directive ends inside the path, and what is behind the line feed is read as another
directive.
-/

namespace EmulationBindings

open EmulationBindings.Action EmulationBindings.Generation EmulationBindings.Options

/-! ## Printing -/

namespace CommandLine

theorem splitOn_printed (ls : List Text) :
    (printed ls).splitOn '\n' = ls.flatMap (·.splitOn '\n') ++ [[]] := by
  induction ls with
  | nil => rfl
  | cons l rest ih =>
      have hprinted : printed (l :: rest) = l ++ '\n' :: printed rest := by
        simp [printed]
      rw [hprinted, List.splitOn_append_cons_self, ih]
      simp

theorem flatMap_splitOn_eq_self_iff (ls : List Text) :
    ls.flatMap (·.splitOn '\n') = ls ↔ ∀ l ∈ ls, '\n' ∉ l := by
  constructor
  · intro heq l hl
    rw [← heq] at hl
    obtain ⟨whole, -, hpiece⟩ := List.mem_flatMap.mp hl
    exact Text.not_mem_of_mem_splitOn hpiece
  · intro hplain
    have hpieces : ls.flatMap (·.splitOn '\n') = ls.flatMap fun l => [l] :=
      List.flatMap_congr fun l hl => List.splitOn_eq_singleton (hplain l hl)
    rw [hpieces, List.flatMap_singleton']

end CommandLine

theorem Text.newline_not_mem_ofInt (n : Int) : '\n' ∉ ofInt n := by
  have hnat (k : Nat) : '\n' ∉ ofNat k := by
    intro hmem
    exact absurd (isDigit_of_mem_ofNat hmem) (by decide)
  cases n with
  | ofNat k => exact hnat k
  | negSucc k =>
      rw [ofInt, List.mem_cons, or_iff_right (by decide)]
      exact hnat (k + 1)

namespace Report

theorem newline_not_mem_count (n : Int) {before after : Text} (hbefore : '\n' ∉ before)
    (hafter : '\n' ∉ after) : '\n' ∉ before ++ Text.ofInt n ++ after := by
  simp [hbefore, hafter, Text.newline_not_mem_ofInt n]

/-- The counts are in order, so it is for the paths to keep a report's directives apart. -/
theorem newline_not_mem_directives_iff (r : Report) :
    (∀ l ∈ r.directives, '\n' ∉ l) ↔ ∀ path ∈ r.rerunIfChanged, '\n' ∉ path := by
  unfold directives
  rw [List.forall_mem_cons, List.forall_mem_cons, List.forall_mem_map,
    and_iff_right (newline_not_mem_count r.profileCount (by decide) (by decide)),
    and_iff_right (newline_not_mem_count r.systemCount (by decide) (by decide))]
  simp

theorem flatMap_splitOn_directives (r : Report) :
    r.directives.flatMap (·.splitOn '\n') =
      ("cargo:warning=Found " ++ Text.ofInt r.profileCount ++ " browser profiles") ::
        ("cargo:warning=Found " ++ Text.ofInt r.systemCount ++ " operating systems") ::
        r.rerunIfChanged.flatMap fun path : Text =>
          ("cargo:rerun-if-changed=" ++ path).splitOn '\n' := by
  unfold directives
  rw [List.flatMap_cons, List.flatMap_cons, List.flatMap_map,
    List.splitOn_eq_singleton (newline_not_mem_count r.profileCount (by decide) (by decide)),
    List.splitOn_eq_singleton (newline_not_mem_count r.systemCount (by decide) (by decide))]
  rfl

end Report

/-! ## The paths of a report -/

namespace CommandLine

theorem newline_mem_tablePath_iff (package : Metadata.Package) :
    '\n' ∈ (package.tablePath Recipe.standard.subpath).text ↔
      '\n' ∈ package.directory.text := by
  have hfile : ∀ name ∈ [("src" : Text), ("emulation" : Text), ("mod.rs" : Text)],
      '\n' ∉ name := by decide
  rw [tablePath_standard, Path.newline_mem_text_iff, Path.newline_mem_text_iff]
  constructor
  · rintro ⟨name, hname, hmem⟩
    rcases List.mem_append.mp hname with hname | hname
    · exact ⟨name, hname, hmem⟩
    · exact absurd hmem (hfile name hname)
  · rintro ⟨name, hname, hmem⟩
    exact ⟨name, List.mem_append_left _ hname, hmem⟩

/-- The report that a call has printed, and the package that it is about. -/
structure Reports (site : Site) (c : Choice) (d : Disk) (package : Metadata.Package)
    (report : Report) : Prop where
  named : ∃ ms, site.outcome.metadata = .ok ms ∧
    Metadata.findPackage (.object ms) Recipe.standard.dependency = .ok package
  ran : ∃ tool directory world, c.tool = .value tool ∧ c.directory = some (.value directory) ∧
    (Generation.run site (request c tool directory)).result { disk := d } = (.ok report, world)
  rerunIfChanged : report.rerunIfChanged = ("build.rs" : Text) ::
    if c.trackSource then [(package.tablePath Recipe.standard.subpath).text] else []

variable {site : Site} {c : Choice} {d : Disk}

theorem exists_reports_of_run {tool : Text} {directory : Path} {report : Report} {world : World}
    (htool : c.tool = .value tool) (hdirectory : c.directory = some (.value directory))
    (hrun : (Generation.run site (request c tool directory)).result { disk := d } =
      (.ok report, world)) :
    ∃ package, Reports site c d package report := by
  obtain ⟨s, typeScript, rust, records, w₁, w₂, hprepared, -, -, hdeliver⟩ := run_eq_ok hrun
  obtain ⟨ms, -, -, hms, hfind, -, hsource, -⟩ := stages_of_surveyed hprepared.surveyed
  refine ⟨s.package, ⟨ms, (queried_eq_ok_iff.mp hms).2, hfind⟩,
    ⟨tool, directory, world, htool, hdirectory, hrun⟩, ?_⟩
  rw [(deliver_eq_ok hdeliver).1]
  unfold reportOf rerunPaths
  rw [hsource]
  unfold request
  cases c.trackSource <;> rfl

theorem exists_run_of_generate {given : Given Path} {report : Report} {world : World}
    (hgenerate : (generate site c given).result { disk := d } = (.ok report, world)) :
    ∃ tool directory, c.tool = .value tool ∧ given = .value directory ∧
      (Generation.run site (request c tool directory)).result { disk := d } =
        (.ok report, world) := by
  cases given with
  | nothing =>
      have hnever := (result_generate_nothing site c d).2 report
      rw [hgenerate] at hnever
      exact absurd rfl hnever
  | value directory =>
      cases htool : c.tool with
      | nothing => simp [generate, htool] at hgenerate
      | value tool =>
          simp only [generate, htool] at hgenerate
          exact ⟨tool, directory, rfl, rfl, hgenerate⟩

theorem exists_reports_of_perform (hstatus : (perform site c d).ending = .status 0) :
    ∃ package report, Reports site c d package report ∧
      (perform site c d).stdout = printed report.directives := by
  cases hdirectory : c.directory with
  | none => simp [perform, hdirectory] at hstatus
  | some given =>
      have hends : EndsAs (perform site c d) ((generate site c given).result { disk := d }) :=
        endsAs_perform hdirectory
      cases hgenerate : (generate site c given).result { disk := d } with
      | mk last world =>
        rw [hgenerate] at hends
        cases last with
        | error stop => exact absurd hstatus (hends.of_not_ok (by simp)).2
        | ok report =>
            obtain ⟨tool, directory, htool, rfl, hrun⟩ := exists_run_of_generate hgenerate
            obtain ⟨package, hreports⟩ := exists_reports_of_run htool hdirectory hrun
            exact ⟨package, report, hreports, (hends.returned report rfl).2⟩

theorem exists_parse_of_choice? {call : CommandLine} {cwd : Location}
    (hchoice : call.choice? cwd d = some c) :
    ∃ loaded, Settings.load call.environment d cwd = .ok loaded ∧
      parse loaded.settings call.arguments = .ok c := by
  unfold choice? at hchoice
  split at hchoice
  · simp at hchoice
  · next loaded hload =>
    refine ⟨loaded, hload, ?_⟩
    cases hparse : parse loaded.settings call.arguments with
    | error e => simp [hparse, Except.toOption] at hchoice
    | ok c' =>
        rw [hparse] at hchoice
        exact congrArg Except.ok (Option.some.inj hchoice)

/-- A call of accepted arguments that returns has carried out the run and printed its report. -/
theorem exists_reports_of_choice? {call : CommandLine}
    (hchoice : call.choice? site.cwd d = some c)
    (hstatus : (call.run site d).ending = .status 0) :
    ∃ package report, Reports site c d package report ∧
      (call.run site d).stdout = printed report.directives := by
  obtain ⟨loaded, hload, hparse⟩ := exists_parse_of_choice? hchoice
  rw [run_of_parse hload hparse] at hstatus ⊢
  exact exists_reports_of_perform hstatus

/-- What a call that returns has printed, line by line: the two counts, the build script, and what
becomes of the path of the table when it is tracked.  These lines are the directives of the report
unless the manifest is in a directory with a line feed in its path. -/
theorem directives_are_lines_iff {call : CommandLine}
    (hchoice : call.choice? site.cwd d = some c)
    (hstatus : (call.run site d).ending = .status 0) :
    ∃ package report, Reports site c d package report ∧
      (call.run site d).stdout.splitOn '\n' =
        ("cargo:warning=Found " ++ Text.ofInt report.profileCount ++ " browser profiles") ::
          ("cargo:warning=Found " ++ Text.ofInt report.systemCount ++ " operating systems") ::
          ("cargo:rerun-if-changed=build.rs" : Text) ::
          (if c.trackSource then
            ("cargo:rerun-if-changed=" ++
              (package.tablePath Recipe.standard.subpath).text).splitOn '\n'
          else []) ++ [[]] ∧
      ((call.run site d).stdout.splitOn '\n' = report.directives ++ [[]] ↔
        (c.trackSource = true → '\n' ∉ package.directory.text)) := by
  obtain ⟨package, report, hreports, hstdout⟩ := exists_reports_of_choice? hchoice hstatus
  refine ⟨package, report, hreports, ?_, ?_⟩
  · have hscript : (("cargo:rerun-if-changed=" : Text) ++ ("build.rs" : Text)).splitOn '\n' =
        [("cargo:rerun-if-changed=build.rs" : Text)] := by decide +kernel
    rw [hstdout, splitOn_printed, Report.flatMap_splitOn_directives, hreports.rerunIfChanged,
      List.flatMap_cons, hscript]
    cases c.trackSource <;> simp
  · rw [hstdout, splitOn_printed, List.append_left_inj, flatMap_splitOn_eq_self_iff,
      Report.newline_not_mem_directives_iff, hreports.rerunIfChanged,
      ← newline_mem_tablePath_iff, List.forall_mem_cons, and_iff_right (by decide)]
    cases c.trackSource <;> simp

/-! ## A tracked table -/

def trackingCall (directory : Text) : CommandLine where
  environment := []
  arguments := ["--manifest-dir", directory, "--track-source"]

def trackingChoice (directory : Path) : Choice where
  directory := some (.value directory)
  tool := .value "cargo"
  trackSource := true

theorem directives_are_lines_iff_of_tracked_table :
    let call := trackingCall "/r/c"
    call.choice? smallSite.cwd smallDisk = some (trackingChoice ⟨.root, ["r", "c"]⟩) ∧
      (call.run smallSite smallDisk).ending = .status 0 ∧
      ∃ package report,
        Reports smallSite (trackingChoice ⟨.root, ["r", "c"]⟩) smallDisk package report ∧
          (call.run smallSite smallDisk).stdout.splitOn '\n' = report.directives ++ [[]] := by
  intro call
  have hchoice : call.choice? smallSite.cwd smallDisk =
      some (trackingChoice ⟨.root, ["r", "c"]⟩) := by decide +kernel
  have hstatus : (call.run smallSite smallDisk).ending = .status 0 := by decide +kernel
  obtain ⟨package, report, hreports, -, hlines⟩ := directives_are_lines_iff hchoice hstatus
  refine ⟨hchoice, hstatus, package, report, hreports, hlines.mpr fun _ => ?_⟩
  obtain ⟨ms, hms, hfind⟩ := hreports.named
  have hfound : (smallSite.outcome.metadata.toOption.bind fun ms =>
      (Metadata.findPackage (.object ms) Recipe.standard.dependency).toOption) =
        some ⟨("wreq-util" : Text), none, ("/d/Cargo.toml" : Text)⟩ := by decide +kernel
  rw [hms] at hfound
  obtain rfl : package = ⟨("wreq-util" : Text), none, ("/d/Cargo.toml" : Text)⟩ := by
    simpa [Except.toOption, hfind] using hfound
  decide +kernel

/-- The directory of the dependency has a name of two lines. -/
def feedDisk : Disk := ⟨[
  (["proj"], .directory), (["proj", "src"], .directory), (["proj", "rust"], .directory),
  (["proj", "rust", "src"], .directory),
  (["reg\ncargo:rustc-env=INJECTED=1"], .directory),
  (["reg\ncargo:rustc-env=INJECTED=1", "src"], .directory),
  (["reg\ncargo:rustc-env=INJECTED=1", "src", "emulation"], .directory),
  (["reg\ncargo:rustc-env=INJECTED=1", "src", "emulation", "mod.rs"],
    .file (Utf8.encode "A => (\"a\", x)\nplain,\nEmulationOS\nL => \"linux\",\n);\n"))]⟩

def feedSite : Site where
  cwd := []
  outcome := .ended 0 (Utf8.encode ("\x7b\"packages\": [\x7b\"name\": \"wreq-util\", " ++
    "\"version\": \"1\", \"manifest_path\": " ++
    "\"reg\\ncargo:rustc-env=INJECTED=1/Cargo.toml\"\x7d]\x7d")) []

/-- Two paths are reported, but three lines follow the counts, and the last one is a directive that
no path was meant to be. -/
theorem second_line_of_path_is_directive :
    let call := trackingCall "proj/rust"
    let directory : Path := ⟨.relative, ["proj", "rust"]⟩
    call.choice? feedSite.cwd feedDisk = some (trackingChoice directory) ∧
      (call.run feedSite feedDisk).ending = .status 0 ∧
      (call.run feedSite feedDisk).stdout.splitOn '\n' =
        (["cargo:warning=Found 1 browser profiles", "cargo:warning=Found 1 operating systems",
          "cargo:rerun-if-changed=build.rs", "cargo:rerun-if-changed=reg",
          "cargo:rustc-env=INJECTED=1/src/emulation/mod.rs", []] : List Text) ∧
      ∃ package report, Reports feedSite (trackingChoice directory) feedDisk package report ∧
        report.rerunIfChanged.length = 2 := by
  intro call directory
  have hchoice : call.choice? feedSite.cwd feedDisk = some (trackingChoice directory) := by
    decide +kernel
  have hstatus : (call.run feedSite feedDisk).ending = .status 0 := by decide +kernel
  obtain ⟨package, report, hreports, -⟩ := exists_reports_of_choice? hchoice hstatus
  refine ⟨hchoice, hstatus, by decide +kernel, package, report, hreports, ?_⟩
  rw [hreports.rerunIfChanged]
  rfl

end CommandLine

end EmulationBindings
