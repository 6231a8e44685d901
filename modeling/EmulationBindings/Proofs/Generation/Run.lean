import EmulationBindings.Proofs.Generation.Destinations
import EmulationBindings.Proofs.Generation.Outputs

/-!
# The order of a run

A run is a survey, which only reads, then rendering, which cannot fail after it, then the two
documents and last the report.  A run that ends has therefore stopped in one of three places,
and what it has done to the disk until then is what its documents and its report have done.
-/

namespace EmulationBindings.Generation

open EmulationBindings.Action

/-- Puts the documents out: writes one after the other, or compares them with the disk. -/
def settle (site : Site) (q : Request) (as : List Artifact) :
    Action (List Report.ArtifactRecord) :=
  if q.check then compare site as else as.mapM (Artifact.write site)

def reportOf (q : Request) (s : Survey) (records : List Report.ArtifactRecord) : Report where
  recipe := q.recipe.id
  dependencyName := s.package.name.shown
  dependencyVersion := s.package.version
  sourcePath := s.source.text
  sourceSha256 := s.sha256
  profiles := s.tables.profiles
  systems := s.tables.systems
  profileCount := s.tables.profiles.length
  systemCount := s.tables.systems.length
  artifacts := records
  rerunIfChanged := rerunPaths q.recipe s.source (q.trackSource.getD q.recipe.trackSource)
  checkOnly := q.check

def deliver (site : Site) (q : Request) (report : Report) : Action Report := do
  if let some path := q.report then
    writeReport site report path
    note (.reportWritten path)
  return report

theorem deliver_of_report_eq_none {site : Site} {q : Request} (hreport : q.report = none)
    (r : Report) :
    deliver site q r = pure r := by
  simp [deliver, hreport]

theorem run_eq (site : Site) (q : Request) :
    run site q = (do
      let s ← survey site q
      let (typeScript, rust) ← s.tables.documents q.recipe
      let records ← settle site q (artifacts q typeScript rust)
      deliver site q (reportOf q s records)) := by
  unfold run
  refine bind_congr fun s => bind_congr fun ⟨typeScript, rust⟩ => ?_
  change (if q.check = true then
      compare site (artifacts q typeScript rust) >>= fun records =>
        deliver site q (reportOf q s records)
    else (artifacts q typeScript rust).mapM (Artifact.write site) >>= fun records =>
        deliver site q (reportOf q s records)) =
    (settle site q (artifacts q typeScript rust) >>= fun records =>
      deliver site q (reportOf q s records))
  unfold settle
  by_cases hcheck : q.check = true
  · rw [if_pos hcheck, if_pos hcheck]
  · rw [if_neg hcheck, if_neg hcheck]

/-- What a run is about to put out: the source on this disk yields both tables, and they yield
both documents. -/
structure Prepared (site : Site) (q : Request) (d : Disk) (s : Survey)
    (typeScript rust : Text) : Prop where
  surveyed : surveyed site q d = .ok s
  rendered : s.tables.rendered q.recipe = .ok (typeScript, rust)

theorem run_eq_ok {site : Site} {q : Request} {w w' : World} {report : Report}
    (hrun : (run site q).result w = (.ok report, w')) :
    ∃ s typeScript rust records w₁ w₂,
      Prepared site q w.disk s typeScript rust ∧ w₁.disk = w.disk ∧
        (settle site q (artifacts q typeScript rust)).result w₁ = (.ok records, w₂) ∧
        (deliver site q (reportOf q s records)).result w₂ = (.ok report, w') := by
  rw [run_eq] at hrun
  obtain ⟨s, v, hsurvey, hrun⟩ := ok_of_bind hrun
  obtain ⟨⟨typeScript, rust⟩, w₁, hdocuments, hrun⟩ := ok_of_bind hrun
  obtain ⟨records, w₂, hsettle, hdeliver⟩ := ok_of_bind hrun
  obtain ⟨hs, hv⟩ := (reads_survey site q).of_result hsurvey
  obtain ⟨hrendered, hw₁⟩ := (Tables.reads_documents q.recipe s.tables).of_result hdocuments
  exact ⟨s, typeScript, rust, records, w₁, w₂, ⟨hs.symm, hrendered.symm⟩, hw₁.trans hv,
    hsettle, hdeliver⟩

theorem run_eq_error {site : Site} {q : Request} {w w' : World} {e : Stop}
    (hrun : (run site q).result w = (.error e, w')) :
    surveyed site q w.disk = .error e ∧ w'.disk = w.disk ∨
      ∃ s typeScript rust w₁,
        Prepared site q w.disk s typeScript rust ∧ w₁.disk = w.disk ∧
          ((settle site q (artifacts q typeScript rust)).result w₁ = (.error e, w') ∨
            ∃ records w₂,
              (settle site q (artifacts q typeScript rust)).result w₁ = (.ok records, w₂) ∧
                (deliver site q (reportOf q s records)).result w₂ = (.error e, w')) := by
  rw [run_eq] at hrun
  rcases error_of_bind hrun with hsurvey | ⟨s, v, hsurvey, hrun⟩
  · obtain ⟨he, hdisk⟩ := (reads_survey site q).of_result hsurvey
    exact .inl ⟨he.symm, hdisk⟩
  obtain ⟨hs, hv⟩ := (reads_survey site q).of_result hsurvey
  obtain ⟨text, -, hfound⟩ := surveyed_eq_ok hs.symm
  obtain ⟨typeScript, rust, hrendered⟩ := Tables.exists_rendered_of_found hfound
  rcases error_of_bind hrun with hdocuments | ⟨⟨ts, rs⟩, w₁, hdocuments, hrun⟩
  · -- The gate has let both tables through, so a renderer never stops a run.
    have he := ((Tables.reads_documents q.recipe s.tables).of_result hdocuments).1
    rw [hrendered] at he
    simp at he
  · obtain ⟨he, hw₁⟩ := (Tables.reads_documents q.recipe s.tables).of_result hdocuments
    refine .inr ⟨s, ts, rs, w₁, ⟨hs.symm, he.symm⟩, hw₁.trans hv, ?_⟩
    exact error_of_bind hrun

/-! ## What is put out -/

/-- The text of the table's file on this disk, and the two documents that its names give. -/
structure Renders (site : Site) (q : Request) (d : Disk) (text typeScript rust : Text) :
    Prop where
  source : SourceText site q d text
  typeScript : Document.typeScript q.recipe (Table.profileNames q.recipe text)
    (Table.systemNames q.recipe text) = .ok typeScript
  rust : Document.rust q.recipe (Table.profileNames q.recipe text)
    (Table.systemNames q.recipe text) = .ok rust

theorem Prepared.renders {site : Site} {q : Request} {d : Disk} {s : Survey}
    {typeScript rust : Text} (hprepared : Prepared site q d s typeScript rust) :
    ∃ text, Renders site q d text typeScript rust ∧
      s.tables = ⟨Table.profileNames q.recipe text, Table.systemNames q.recipe text⟩ ∧
      Table.profileNames q.recipe text ≠ [] ∧ Table.systemNames q.recipe text ≠ [] := by
  obtain ⟨text, hsource, hfound⟩ := surveyed_eq_ok hprepared.surveyed
  obtain ⟨hprofiles, hsystems, htables⟩ := Tables.found_eq_ok_iff.mp hfound
  have hrendered := hprepared.rendered
  rw [htables] at hrendered
  obtain ⟨htypeScript, hrust⟩ := Tables.rendered_eq_ok_iff.mp hrendered
  exact ⟨text, ⟨hsource, htypeScript, hrust⟩, htables, hprofiles, hsystems⟩

/-- Both destinations hold their documents, and everywhere else the disk is as it was. -/
structure HoldsBoth (site : Site) (q : Request) (typeScript rust : Text) (d d' : Disk) :
    Prop where
  typeScript : d'.read site.cwd (typeScriptDestination q) = .ok (Utf8.encode typeScript)
  rust : d'.read site.cwd (rustDestination q) = .ok (Utf8.encode rust)
  elsewhere : ∀ l, l ≠ (typeScriptDestination q).target site.cwd →
    l ≠ (rustDestination q).target site.cwd → d'.get? l = d.get? l

theorem holdsBoth_of_wrote {site : Site} {q : Request} {typeScript rust : Text}
    {d d₁ d₂ : Disk} (hdistinct : DistinctOutputs site.cwd q)
    (htypeScript : d.Wrote site.cwd (typeScriptDestination q) (Utf8.encode typeScript) d₁)
    (hrust : d₁.Wrote site.cwd (rustDestination q) (Utf8.encode rust) d₂) :
    HoldsBoth site q typeScript rust d d₂ where
  typeScript := hrust.read_of_ne hdistinct htypeScript.read
  rust := hrust.read
  elsewhere := by
    intro l hl hl'
    rw [hrust.get?_of_ne hl', htypeScript.get?_of_ne hl]

theorem settle_eq_ok_of_write {site : Site} {q : Request} {typeScript rust : Text}
    {w w' : World} {records : List Report.ArtifactRecord} (hcheck : q.check = false)
    (hdistinct : DistinctOutputs site.cwd q)
    (hsettle : (settle site q (artifacts q typeScript rust)).result w = (.ok records, w')) :
    HoldsBoth site q typeScript rust w.disk w'.disk ∧
      ∃ changed changed', records = [
        { kind := "typescript"
          path := (typeScriptDestination q).text
          sha256 := Sha256.hexDigest (Utf8.encode typeScript)
          changed := changed },
        { kind := "rust"
          path := (rustDestination q).text
          sha256 := Sha256.hexDigest (Utf8.encode rust)
          changed := changed' }] := by
  rw [settle, if_neg (by simp [hcheck])] at hsettle
  obtain ⟨changed, changed', d, hrecords, -, hwrote, -, hwrote', -⟩ := writeBoth_eq_ok hsettle
  exact ⟨holdsBoth_of_wrote hdistinct hwrote hwrote', changed, changed', hrecords⟩

theorem settle_eq_ok_of_check {site : Site} {q : Request} {typeScript rust : Text}
    {w w' : World} {records : List Report.ArtifactRecord} (hcheck : q.check = true)
    (hsettle : (settle site q (artifacts q typeScript rust)).result w = (.ok records, w')) :
    w'.disk = w.disk ∧
      ∀ a ∈ artifacts q typeScript rust, Artifact.isStale w.disk site.cwd a = .ok false := by
  rw [settle, if_pos hcheck] at hsettle
  obtain ⟨hcompared, hdisk⟩ := (reads_compare site _).of_result hsettle
  exact ⟨hdisk, isStale_of_compared_eq_ok hcompared.symm⟩

/-! ## What is handed over -/

theorem deliver_eq_ok {site : Site} {q : Request} {r report : Report} {w w' : World}
    (hdeliver : (deliver site q r).result w = (.ok report, w')) :
    report = r ∧
      (q.report = none ∧ w'.disk = w.disk ∨
        ∃ path d, q.report = some path ∧
          Disk.GrownAt (path.parent.stations site.cwd) w.disk d ∧
          d.Wrote site.cwd path (Utf8.encode r.text) w'.disk) := by
  unfold deliver at hdeliver
  cases hpath : q.report with
  | none =>
      simp only [hpath, result_pure, Prod.mk.injEq, Except.ok.injEq] at hdeliver
      obtain ⟨rfl, rfl⟩ := hdeliver
      exact ⟨rfl, .inl ⟨rfl, rfl⟩⟩
  | some path =>
      simp only [hpath] at hdeliver
      obtain ⟨_, w₁, hreport, hdeliver⟩ := ok_of_bind hdeliver
      obtain ⟨_, w₂, hnote, hpure⟩ := ok_of_bind hdeliver
      obtain ⟨d, hgrown, hwrote⟩ := writeReport_eq_ok hreport
      cases hnote
      cases hpure
      exact ⟨rfl, .inr ⟨path, d, rfl, hgrown, hwrote⟩⟩

theorem deliver_eq_error {site : Site} {q : Request} {r : Report} {w w' : World} {f : Failure}
    (hdeliver : (deliver site q r).result w = (.error (.failed f), w')) :
    ∃ path error d, q.report = some path ∧ f = .reportAccess path error ∧
      Disk.GrownAt (path.parent.stations site.cwd) w.disk d ∧
      d.Spoilt site.trouble site.cwd path (Utf8.encode r.text) w'.disk := by
  unfold deliver at hdeliver
  cases hpath : q.report with
  | none => simp [hpath] at hdeliver
  | some path =>
      simp only [hpath] at hdeliver
      rcases error_of_bind hdeliver with hreport | ⟨_, w₁, -, hdeliver⟩
      · obtain ⟨hnamed, d, hgrown, hspoilt⟩ := writeReport_eq_error hreport
        obtain ⟨error, rfl⟩ := hnamed f rfl
        exact ⟨path, error, d, rfl, rfl, hgrown, hspoilt⟩
      · rcases error_of_bind hdeliver with hnote | ⟨_, w₂, -, hpure⟩
        · simp at hnote
        · simp at hpure

/-! ## A small crate -/

/-- A crate at `/r/c` with an old document in place, and a table with one name in each list. -/
def smallDisk : Disk := ⟨[
  (["d"], .directory), (["d", "src"], .directory), (["d", "src", "emulation"], .directory),
  (["d", "src", "emulation", "mod.rs"],
    .file (Utf8.encode "=> (\"a\"\nplain,\nEmulationOS\n=> \"b\"\n")),
  (["r"], .directory), (["r", "src"], .directory),
  (["r", "src", "generated-types.ts"], .file (Utf8.encode "old")),
  (["r", "c"], .directory), (["r", "c", "src"], .directory)]⟩

def smallSite : Site where
  cwd := []
  outcome := .ended 0 (Utf8.encode ("\x7b\"packages\": [\x7b\"name\": \"wreq-util\", " ++
    "\"manifest_path\": \"/d/Cargo.toml\"\x7d]\x7d")) []

/-- The same crate, where files have room for so many bytes. -/
def narrowSite (room : ℕ) : Site := { smallSite with trouble := .limit room }

/-- The report goes to a directory that is not there yet. -/
def smallRequest : Request where
  directory := ⟨.root, ["r", "c"]⟩
  report := some ⟨.root, ["r", "out", "report"]⟩

end EmulationBindings.Generation
