import EmulationBindings.Proofs.Generation.Stages

/-!
# Writing and checking

A request can be run to write its documents or to check them, and without a report the two runs
differ in nothing else.  Both judge each document on the disk as the run has found it: a run that
writes judges its second document after the first is written, but the first goes to another file.
What passes a check is a file with the lines of its document, so a run that writes changes it by
the carriage returns in it and no more.
-/

namespace EmulationBindings

open EmulationBindings.Action

namespace Generation

def typeScriptArtifact (q : Request) (content : Text) : Artifact where
  kind := "typescript"
  path := typeScriptDestination q
  content := content

def rustArtifact (q : Request) (content : Text) : Artifact where
  kind := "rust"
  path := rustDestination q
  content := content

theorem artifacts_eq (q : Request) (typeScript rust : Text) :
    artifacts q typeScript rust = [typeScriptArtifact q typeScript, rustArtifact q rust] := rfl

section

variable {site : Site} {q : Request} {d : Disk} {s s' : Survey} {typeScript rust : Text}
  {typeScript' rust' : Text}

theorem Prepared.withCheck (hprepared : Prepared site q d s typeScript rust) (check : Bool) :
    Prepared site { q with check := check } d s typeScript rust :=
  ⟨hprepared.surveyed, hprepared.rendered⟩

/-- Nothing is written before the documents, so no trouble of the system is met. -/
theorem Prepared.untroubled (hprepared : Prepared site q d s typeScript rust) :
    Prepared site.untroubled q d s typeScript rust :=
  ⟨hprepared.surveyed, hprepared.rendered⟩

theorem Prepared.unique (hprepared : Prepared site q d s typeScript rust)
    (hprepared' : Prepared site q d s' typeScript' rust') :
    s = s' ∧ typeScript = typeScript' ∧ rust = rust' := by
  obtain rfl := Except.ok.inj (hprepared.surveyed.symm.trans hprepared'.surveyed)
  have hpair := Except.ok.inj (hprepared.rendered.symm.trans hprepared'.rendered)
  exact ⟨rfl, Prod.mk.inj hpair⟩

/-- How the two documents of a run are judged on a disk. -/
structure Judges (site : Site) (q : Request) (typeScript rust : Text) (d : Disk)
    (changed changed' : Bool) : Prop where
  typeScript : Artifact.isStale d site.cwd (typeScriptArtifact q typeScript) = .ok changed
  rust : Artifact.isStale d site.cwd (rustArtifact q rust) = .ok changed'

theorem Judges.withCheck {changed changed' : Bool}
    (hjudges : Judges site q typeScript rust d changed changed') (check : Bool) :
    Judges site { q with check := check } typeScript rust d changed changed' :=
  ⟨hjudges.typeScript, hjudges.rust⟩

theorem Judges.unique {changed₁ changed₁' changed₂ changed₂' : Bool}
    (hjudges₁ : Judges site q typeScript rust d changed₁ changed₁')
    (hjudges₂ : Judges site q typeScript rust d changed₂ changed₂') :
    changed₁ = changed₂ ∧ changed₁' = changed₂' :=
  ⟨Except.ok.inj (hjudges₁.typeScript.symm.trans hjudges₂.typeScript),
    Except.ok.inj (hjudges₁.rust.symm.trans hjudges₂.rust)⟩

end

/-! ## A run that writes -/

/-- First the TypeScript document is written, and then the Rust document. -/
def WroteBoth (site : Site) (q : Request) (typeScript rust : Text) (d d' : Disk) : Prop :=
  ∃ d₁, d.Wrote site.cwd (typeScriptDestination q) (Utf8.encode typeScript) d₁ ∧
    d₁.Wrote site.cwd (rustDestination q) (Utf8.encode rust) d'

theorem WroteBoth.holdsBoth {site : Site} {q : Request} {typeScript rust : Text} {d d' : Disk}
    (hwrote : WroteBoth site q typeScript rust d d') (hdistinct : DistinctOutputs site.cwd q) :
    HoldsBoth site q typeScript rust d d' := by
  obtain ⟨d₁, hfirst, hsecond⟩ := hwrote
  exact holdsBoth_of_wrote hdistinct hfirst hsecond

/-- The system lets both documents be written. -/
structure LetsBoth (site : Site) (q : Request) (typeScript rust : Text) : Prop where
  typeScript : site.trouble ((typeScriptDestination q).target site.cwd)
    (Utf8.encode typeScript) = none
  rust : site.trouble ((rustDestination q).target site.cwd) (Utf8.encode rust) = none

theorem written_of_run {site : Site} {q : Request} {w w' : World} {report : Report}
    (hrecipe : q.recipe = .standard) (hreport : q.report = none) (hcheck : q.check = false)
    (hrun : (run site q).result w = (.ok report, w')) :
    ∃ s typeScript rust changed changed',
      Prepared site q w.disk s typeScript rust ∧
        Judges site q typeScript rust w.disk changed changed' ∧
        WroteBoth site q typeScript rust w.disk w'.disk ∧ LetsBoth site q typeScript rust ∧
        report = reportOf q s [(typeScriptArtifact q typeScript).record changed,
          (rustArtifact q rust).record changed'] := by
  obtain ⟨s, typeScript, rust, records, w₁, w₂, hprepared, hdisk, hsettle, hdeliver⟩ :=
    run_eq_ok hrun
  rw [settle, if_neg (by simp [hcheck]), artifacts_eq] at hsettle
  obtain ⟨changed, changed', d, rfl, hstale, hwrote, hstale', hwrote', hlet, hlet'⟩ :=
    writeBoth_eq_ok hsettle
  rw [deliver_of_report_eq_none hreport, result_pure] at hdeliver
  obtain ⟨hend, rfl⟩ := Prod.mk.inj hdeliver
  obtain rfl := Except.ok.inj hend
  rw [hdisk] at hstale hwrote
  -- The document written first is not where the second is looked for.
  have hunmoved : Artifact.isStale w.disk site.cwd (rustArtifact q rust) = .ok changed' := by
    rw [← Artifact.isStale_of_wrote_ne hwrote (distinctOutputs_standard site.cwd hrecipe).symm]
    exact hstale'
  exact ⟨s, typeScript, rust, changed, changed', hprepared, ⟨hstale, hunmoved⟩,
    ⟨d, hwrote, hwrote'⟩, ⟨hlet, hlet'⟩, rfl⟩

/-- A run whose destinations both hold a file is not stopped by its documents, if the system lets
them be written. -/
theorem exists_result_run_of_read {site : Site} {q : Request} {w : World} {s : Survey}
    {typeScript rust : Text} {old old' : Bytes} (hrecipe : q.recipe = .standard)
    (hreport : q.report = none) (hcheck : q.check = false)
    (hprepared : Prepared site q w.disk s typeScript rust)
    (htypeScript : w.disk.read site.cwd (typeScriptDestination q) = .ok old)
    (hrust : w.disk.read site.cwd (rustDestination q) = .ok old')
    (hlets : LetsBoth site q typeScript rust) :
    ∃ report w', (run site q).result w = (.ok report, w') := by
  obtain ⟨w₁, hdisk, -, hrun⟩ := exists_result_run_of_prepared hreport hprepared
  rw [← hdisk] at htypeScript hrust
  obtain ⟨record, w₂, hfirst⟩ :=
    Artifact.exists_result_write (a := typeScriptArtifact q typeScript) htypeScript
      hlets.typeScript
  obtain ⟨-, -, -, hwrote⟩ := Artifact.write_eq_ok hfirst
  have hrust₂ : w₂.disk.read site.cwd (rustDestination q) = .ok old' :=
    hwrote.read_of_ne (distinctOutputs_standard site.cwd hrecipe).symm hrust
  obtain ⟨record', w₃, hsecond⟩ :=
    Artifact.exists_result_write (a := rustArtifact q rust) hrust₂ hlets.rust
  have hsettle : (settle site q (artifacts q typeScript rust)).result w₁ =
      (.ok [record, record'], w₃) := by
    rw [settle, if_neg (by simp [hcheck]), artifacts_eq]
    simp only [List.mapM_cons, List.mapM_nil, result_bind, hfirst, hsecond, result_pure]
  exact ⟨reportOf q s [record, record'], w₃, hrun hsettle⟩

/-! ## A run that checks -/

/-- A run that checks ends as the comparison of its documents does, on an untouched disk. -/
theorem exists_result_run_of_check {site : Site} {q : Request} {w : World} {s : Survey}
    {typeScript rust : Text} (hreport : q.report = none) (hcheck : q.check = true)
    (hprepared : Prepared site q w.disk s typeScript rust) :
    ∃ w', w'.disk = w.disk ∧
      (run site q).result w =
        ((compared site (artifacts q typeScript rust) w.disk).map (reportOf q s), w') := by
  obtain ⟨w₁, hdisk, -, hrun⟩ := exists_result_run_of_prepared hreport hprepared
  cases hsettle : (settle site q (artifacts q typeScript rust)).result w₁ with
  | mk r w₂ =>
      have hcompare := hsettle
      rw [settle, if_pos hcheck] at hcompare
      obtain ⟨hr, hkept⟩ := (reads_compare site _).of_result hcompare
      rw [hdisk] at hr hkept
      exact ⟨w₂, hkept, by rw [hrun hsettle, hr]⟩

/-- It passes when both documents are up to date, and otherwise names those that are not. -/
theorem exists_result_run_of_judges {site : Site} {q : Request} {w : World} {s : Survey}
    {typeScript rust : Text} {changed changed' : Bool} {records : List Report.ArtifactRecord}
    (hreport : q.report = none) (hcheck : q.check = true)
    (hprepared : Prepared site q w.disk s typeScript rust)
    (hjudges : Judges site q typeScript rust w.disk changed changed')
    (hrecords : records = [(typeScriptArtifact q typeScript).record changed,
      (rustArtifact q rust).record changed']) :
    ∃ e w', (run site q).result w = (e, w') ∧ w'.disk = w.disk ∧
      ((∃ record ∈ records, record.changed = true) →
        ∃ f, e = .error (.failed f) ∧ f.stage = .staleArtifact ∧
          f.message = "Generated files are out of date: " ++
            Text.commas ((records.filter (·.changed)).map (·.path))) ∧
      ((∀ record ∈ records, record.changed = false) → e = .ok (reportOf q s records)) := by
  subst hrecords
  let all := [(typeScriptArtifact q typeScript, changed), (rustArtifact q rust, changed')]
  have hall : ∀ entry ∈ all, Artifact.isStale w.disk site.cwd entry.1 = .ok entry.2 := by
    simpa [all] using And.intro hjudges.typeScript hjudges.rust
  obtain ⟨w', hdisk, hend⟩ := exists_result_run_of_check hreport hcheck hprepared
  refine ⟨_, w', hend, hdisk, fun hchanged => ?_, fun hcurrent => ?_⟩
  · obtain ⟨f, hcompared, hstage, hmessage⟩ := compared_of_changed hall hchanged
    refine ⟨f, ?_, hstage, hmessage⟩
    exact congrArg (Except.map _) hcompared
  · exact congrArg (Except.map _) (compared_of_current hall hcurrent)

theorem checked_of_run {site : Site} {q : Request} {w w' : World} {report : Report}
    (hreport : q.report = none) (hcheck : q.check = true)
    (hrun : (run site q).result w = (.ok report, w')) :
    ∃ s typeScript rust,
      Prepared site q w.disk s typeScript rust ∧
        Judges site q typeScript rust w.disk false false ∧ w'.disk = w.disk := by
  obtain ⟨s, typeScript, rust, records, w₁, w₂, hprepared, hdisk, hsettle, hdeliver⟩ :=
    run_eq_ok hrun
  obtain ⟨hkept, hcurrent⟩ := settle_eq_ok_of_check hcheck hsettle
  rw [deliver_of_report_eq_none hreport, result_pure] at hdeliver
  obtain ⟨-, rfl⟩ := Prod.mk.inj hdeliver
  rw [hdisk] at hcurrent hkept
  have htypeScript := hcurrent (typeScriptArtifact q typeScript) (by simp [artifacts_eq])
  have hrust := hcurrent (rustArtifact q rust) (by simp [artifacts_eq])
  exact ⟨s, typeScript, rust, hprepared, ⟨htypeScript, hrust⟩, hkept⟩

/-! ## What both ways have in common -/

theorem check_agrees_with_write {site : Site} {q : Request} {w w' u : World} {report : Report}
    (hrecipe : q.recipe = .standard) (hreport : q.report = none) (hcheck : q.check = false)
    (hrun : (run site q).result w = (.ok report, w')) (hsame : u.disk = w.disk) :
    report.artifacts.map (·.path) = [(typeScriptDestination q).text, (rustDestination q).text] ∧
      ∃ e v, (run site { q with check := true }).result u = (e, v) ∧ v.disk = u.disk ∧
        ((∃ record ∈ report.artifacts, record.changed = true) →
          ∃ f, e = .error (.failed f) ∧ f.stage = .staleArtifact ∧
            f.message = "Generated files are out of date: " ++
              Text.commas ((report.artifacts.filter (·.changed)).map (·.path))) ∧
        ((∀ record ∈ report.artifacts, record.changed = false) →
          e = .ok { report with checkOnly := true }) := by
  obtain ⟨s, typeScript, rust, changed, changed', hprepared, hjudges, -, -, rfl⟩ :=
    written_of_run hrecipe hreport hcheck hrun
  rw [← hsame] at hprepared hjudges
  obtain ⟨e, v, hend, hdisk, hchanged, hcurrent⟩ := exists_result_run_of_judges
    (q := { q with check := true }) hreport rfl (hprepared.withCheck true)
    (hjudges.withCheck true) rfl
  exact ⟨rfl, e, v, hend, hdisk, hchanged, hcurrent⟩

def quietRequest : Request := { smallRequest with report := none }

theorem check_agrees_with_write_of_old_document :
    ∃ report w' f v,
      (run smallSite quietRequest).result { disk := smallDisk } = (.ok report, w') ∧
        (run smallSite { quietRequest with check := true }).result { disk := smallDisk } =
          (.error (.failed f), v) ∧
        v.disk = smallDisk ∧ f.stage = .staleArtifact ∧
        f.message = "Generated files are out of date: " ++
          Text.commas ((report.artifacts.filter (·.changed)).map (·.path)) := by
  obtain ⟨report, w', hrun, hsome⟩ := exists_result_of_endsWith
    (x := run smallSite quietRequest) (w := { disk := smallDisk })
    (p := fun report _ => report.artifacts.any (·.changed)) (by decide +kernel)
  obtain ⟨-, e, v, hcheck, hdisk, hchanged, -⟩ :=
    check_agrees_with_write (u := { disk := smallDisk }) rfl rfl rfl hrun rfl
  obtain ⟨f, rfl, hstage, hmessage⟩ := hchanged (by simpa using hsome)
  exact ⟨report, w', f, v, hrun, hcheck, hdisk, hstage, hmessage⟩

/-! ## What passes for current -/

theorem keepsLines_of_write {site : Site} {a : Artifact} {w w' : World}
    {record : Report.ArtifactRecord} (hwrite : (a.write site).result w = (.ok record, w'))
    (hchanged : record.changed = false) :
    Artifact.KeepsLines site.cwd a.path w.disk w'.disk := by
  obtain ⟨changed, hstale, rfl, hwrote⟩ := Artifact.write_eq_ok hwrite
  obtain rfl : changed = false := hchanged
  exact Artifact.keepsLines_of_isStale_eq_false hstale hwrote.read

theorem keepsLines_of_check {site : Site} {q : Request} {w w' : World} {report : Report}
    (hrecipe : q.recipe = .standard) (hreport : q.report = none) (hcheck : q.check = true)
    (hrun : (run site q).result w = (.ok report, w')) :
    w'.disk = w.disk ∧
      ∃ written v,
        (run site.untroubled { q with check := false }).result w = (.ok written, v) ∧
        Artifact.KeepsLines site.cwd (typeScriptDestination q) w.disk v.disk ∧
        Artifact.KeepsLines site.cwd (rustDestination q) w.disk v.disk := by
  obtain ⟨s, typeScript, rust, hprepared, hjudges, hkept⟩ :=
    checked_of_run hreport hcheck hrun
  have hprepared' := hprepared.untroubled.withCheck false
  -- What passes for current is a file, and a file can be written over.
  obtain ⟨old, hold, -⟩ := Artifact.read_of_isStale_eq_false hjudges.typeScript
  obtain ⟨old', hold', -⟩ := Artifact.read_of_isStale_eq_false hjudges.rust
  obtain ⟨written, v, hwritten⟩ : ∃ written v,
      (run site.untroubled { q with check := false }).result w = (.ok written, v) :=
    exists_result_run_of_read hrecipe hreport rfl hprepared' hold hold' ⟨rfl, rfl⟩
  obtain ⟨s', typeScript', rust', -, -, hwrittenPrepared, -, hwrote, -, -⟩ :=
    written_of_run (q := { q with check := false }) hrecipe hreport rfl hwritten
  obtain ⟨-, rfl, rfl⟩ := hprepared'.unique hwrittenPrepared
  have hholds := hwrote.holdsBoth (distinctOutputs_standard site.cwd hrecipe)
  exact ⟨hkept, written, v, hwritten,
    Artifact.keepsLines_of_isStale_eq_false hjudges.typeScript hholds.typeScript,
    Artifact.keepsLines_of_isStale_eq_false hjudges.rust hholds.rust⟩

/-- A check that passes, and a write that reports no change, tell that a file has the lines of its
document: they stay when the document is written, by a system that lets it be.  They do not tell
that the file has its bytes, as a carriage return in a line ending goes unseen. -/
theorem current_files_keep_lines (site : Site) :
    (∀ q w w' report, q.recipe = .standard → q.report = none → q.check = true →
      (run site q).result w = (.ok report, w') →
        w'.disk = w.disk ∧
          ∃ written v,
            (run site.untroubled { q with check := false }).result w = (.ok written, v) ∧
            Artifact.KeepsLines site.cwd (typeScriptDestination q) w.disk v.disk ∧
            Artifact.KeepsLines site.cwd (rustDestination q) w.disk v.disk) ∧
      ∀ a w w' record, (Artifact.write site a).result w = (.ok record, w') →
        record.changed = false → Artifact.KeepsLines site.cwd a.path w.disk w'.disk :=
  ⟨fun _ _ _ _ hrecipe hreport hcheck hrun => keepsLines_of_check hrecipe hreport hcheck hrun,
    fun _ _ _ _ hwrite hchanged => keepsLines_of_write hwrite hchanged⟩

/-- A carriage return before every line feed. -/
def withReturns (t : Text) : Text := t.flatMap fun c => if c = '\n' then ['\r', '\n'] else [c]

def smallTypeScript : Text := (Document.typeScript .standard ["a"] ["b"]).toOption.getD []

def smallRust : Text := (Document.rust .standard ["a"] ["b"]).toOption.getD []

/-- The small crate with both documents in place, one of them checked out with other line
endings. -/
def checkedOutDisk : Disk :=
  (smallDisk.set ["r", "src", "generated-types.ts"]
      (.file (Utf8.encode (withReturns smallTypeScript)))).set
    ["r", "c", "src", "generated_profiles.rs"] (.file (Utf8.encode smallRust))

theorem exists_result_check_checkedOutDisk :
    ∃ report w', (run smallSite { quietRequest with check := true }).result
      { disk := checkedOutDisk } = (.ok report, w') :=
  exists_result_of_isOk (by decide +kernel)

theorem current_files_keep_lines_of_checked_out :
    (∃ written v,
      (run smallSite quietRequest).result { disk := checkedOutDisk } = (.ok written, v) ∧
        Artifact.KeepsLines [] (typeScriptDestination quietRequest) checkedOutDisk v.disk ∧
        Artifact.KeepsLines [] (rustDestination quietRequest) checkedOutDisk v.disk) ∧
      ∃ record v,
        ((typeScriptArtifact quietRequest smallTypeScript).write smallSite).result
            { disk := checkedOutDisk } = (.ok record, v) ∧
          Artifact.KeepsLines [] (typeScriptDestination quietRequest) checkedOutDisk v.disk := by
  obtain ⟨hcheck, hwrite⟩ := current_files_keep_lines smallSite
  obtain ⟨report, w', hrun⟩ := exists_result_check_checkedOutDisk
  obtain ⟨record, v, hwritten, hcurrent⟩ := exists_result_of_endsWith
    (x := (typeScriptArtifact quietRequest smallTypeScript).write smallSite)
    (w := { disk := checkedOutDisk }) (p := fun record _ => !record.changed) (by decide +kernel)
  exact ⟨(hcheck _ _ _ _ rfl rfl rfl hrun).2,
    record, v, hwritten, hwrite _ _ _ _ hwritten (by simpa using hcurrent)⟩

theorem passed_check_of_other_bytes :
    ∃ report w' written v,
      (run smallSite { quietRequest with check := true }).result { disk := checkedOutDisk } =
          (.ok report, w') ∧
        (run smallSite quietRequest).result { disk := checkedOutDisk } = (.ok written, v) ∧
        (∀ record ∈ written.artifacts, record.changed = false) ∧
        v.disk.read [] (typeScriptDestination quietRequest) ≠
          checkedOutDisk.read [] (typeScriptDestination quietRequest) := by
  obtain ⟨report, w', hcheck⟩ := exists_result_check_checkedOutDisk
  obtain ⟨written, v, hwrite, htest⟩ := exists_result_of_endsWith
    (x := run smallSite quietRequest) (w := { disk := checkedOutDisk })
    (p := fun written v => written.artifacts.all (!·.changed) &&
      decide (v.disk.read [] (typeScriptDestination quietRequest) ≠
        checkedOutDisk.read [] (typeScriptDestination quietRequest))) (by decide +kernel)
  obtain ⟨hcurrent, hbytes⟩ := (Bool.and_eq_true _ _).mp htest
  exact ⟨report, w', written, v, hcheck, hwrite, by simpa using hcurrent,
    of_decide_eq_true hbytes⟩

end Generation

end EmulationBindings
