import EmulationBindings.Proofs.Generation.Run

/-!
# What a failed run leaves behind

A run that fails before it writes, or because documents are out of date, leaves the disk as it
was.  A run that cannot write an output has finished the outputs before it and has not begun the
ones after it.  Of the output itself it leaves nothing, but for the directories on the way to a
report, unless the system has stopped the write in the open file: then its beginning is there.
-/

namespace EmulationBindings.Generation

open EmulationBindings.Action

/-- The outputs of a run, in the order in which they are written. -/
inductive Output where
  | typeScript
  | rust
  | report

/-- The output that a failure names. -/
def named? : Failure → Option Output
  | .artifactAccess kind _ _ => if kind = "typescript" then some .typeScript else some .rust
  | .reportAccess _ _ => some .report
  | _ => none

/-- What a run has done when it comes to the file of its report: both documents are in place, or
were before a check, and there may be new directories on the way to the report. -/
structure UpToReport (site : Site) (q : Request) (typeScript rust : Text) (path : Path)
    (d d' : Disk) : Prop where
  written : q.check = false →
    d'.read site.cwd (typeScriptDestination q) = .ok (Utf8.encode typeScript) ∧
      d'.read site.cwd (rustDestination q) = .ok (Utf8.encode rust)
  checked : q.check = true →
    d'.get? ((typeScriptDestination q).target site.cwd) =
        d.get? ((typeScriptDestination q).target site.cwd) ∧
      d'.get? ((rustDestination q).target site.cwd) = d.get? ((rustDestination q).target site.cwd)
  elsewhere : ∀ l, l ≠ (typeScriptDestination q).target site.cwd →
    l ≠ (rustDestination q).target site.cwd →
    d'.get? l = d.get? l ∨
      l ∈ path.parent.stations site.cwd ∧ d.get? l = none ∧ d'.get? l = some .directory

/-- The failure names this output, and `d'` is what the run has made of `d` until then.  In each
case only the file of this output can be spoilt. -/
def Aftermath (site : Site) (q : Request) (typeScript rust : Text) (f : Failure)
    (d d' : Disk) : Output → Prop
  | .typeScript =>
    (∃ error, f = .artifactAccess "typescript" (typeScriptDestination q) error) ∧
      d.Spoilt site.trouble site.cwd (typeScriptDestination q) (Utf8.encode typeScript) d'
  | .rust =>
    (∃ error, f = .artifactAccess "rust" (rustDestination q) error) ∧
      d'.read site.cwd (typeScriptDestination q) = .ok (Utf8.encode typeScript) ∧
      ∃ d₁ : Disk, (∀ l, l ≠ (typeScriptDestination q).target site.cwd → d₁.get? l = d.get? l) ∧
        d₁.Spoilt site.trouble site.cwd (rustDestination q) (Utf8.encode rust) d'
  | .report =>
    ∃ (path : Path) (error : SystemError) (s : Survey) (records : List Report.ArtifactRecord)
        (d₁ : Disk),
      q.report = some path ∧ f = .reportAccess path error ∧
      surveyed site q d = .ok s ∧ UpToReport site q typeScript rust path d d₁ ∧
      d₁.Spoilt site.trouble site.cwd path (Utf8.encode (reportOf q s records).text) d'

section Aftermath

variable {site : Site} {q : Request} {typeScript rust : Text} {f : Failure} {d d' : Disk}

theorem Aftermath.named {o : Output}
    (ho : Aftermath site q typeScript rust f d d' o) :
    named? f = some o := by
  cases o with
  | typeScript =>
      obtain ⟨⟨error, rfl⟩, -⟩ := ho
      unfold named?
      simp only [if_true]
  | rust =>
      obtain ⟨⟨error, rfl⟩, -⟩ := ho
      have hother : ("rust" : Text) ≠ "typescript" := by
        decide
      unfold named?
      simp only [if_neg hother]
  | report =>
      obtain ⟨path, error, s, records, d₁, -, rfl, -⟩ := ho
      rfl

theorem Aftermath.unique {o o' : Output}
    (ho : Aftermath site q typeScript rust f d d' o)
    (ho' : Aftermath site q typeScript rust f d d' o') :
    o' = o :=
  Option.some.inj (ho'.named.symm.trans ho.named)

theorem Aftermath.stage {o : Output}
    (ho : Aftermath site q typeScript rust f d d' o) :
    f.stage = .writeFailure := by
  have hnamed := ho.named
  unfold named? at hnamed
  split at hnamed
  · rfl
  · rfl
  · simp at hnamed

theorem aftermath_of_settle_eq_error {w w' : World} (hdistinct : DistinctOutputs site.cwd q)
    (hdisk : w.disk = d) (hcheck : q.check = false)
    (hsettle : (settle site q (artifacts q typeScript rust)).result w =
      (.error (.failed f), w')) :
    Aftermath site q typeScript rust f d w'.disk .typeScript ∨
      Aftermath site q typeScript rust f d w'.disk .rust := by
  subst hdisk
  rw [settle, if_neg (by simp [hcheck])] at hsettle
  rcases writeBoth_eq_error hsettle with hfirst | ⟨hnamed, d₁, hwrote, hspoilt⟩
  · exact .inl hfirst
  · refine .inr ⟨hnamed, ?_, d₁, fun l hl => hwrote.get?_of_ne hl, hspoilt⟩
    exact hspoilt.read_of_ne hdistinct hwrote.read

theorem upToReport_of_check {w₁ w₂ : World} {records : List Report.ArtifactRecord} {path : Path}
    (hcheck : q.check = true)
    (hsettle : (settle site q (artifacts q typeScript rust)).result w₁ = (.ok records, w₂))
    (hgrown : w₂.disk.GrownAt (path.parent.stations site.cwd) d') :
    UpToReport site q typeScript rust path w₁.disk d' := by
  obtain ⟨hdisk, hcurrent⟩ := settle_eq_ok_of_check hcheck hsettle
  rw [hdisk] at hgrown
  -- Both documents were found current, so a file is at each destination and none can be made there.
  have huntouched (a : Artifact) (ha : a ∈ artifacts q typeScript rust) :
      d'.get? (a.path.target site.cwd) = w₁.disk.get? (a.path.target site.cwd) := by
    obtain ⟨bytes, hread, -⟩ := Artifact.read_of_isStale_eq_false (hcurrent a ha)
    have hnode := (Disk.read_eq_ok_iff.mp hread).2.2
    exact hgrown.get?_eq (by simp [hnode])
  exact {
    written := by simp [hcheck]
    checked := fun _ => ⟨huntouched _ List.mem_cons_self,
      huntouched _ (List.mem_cons_of_mem _ List.mem_cons_self)⟩
    elsewhere := fun l _ _ => hgrown l }

theorem upToReport_of_write {w₁ w₂ : World} {records : List Report.ArtifactRecord} {path : Path}
    (hcheck : q.check = false) (hdistinct : DistinctOutputs site.cwd q)
    (hsettle : (settle site q (artifacts q typeScript rust)).result w₁ = (.ok records, w₂))
    (hgrown : w₂.disk.GrownAt (path.parent.stations site.cwd) d') :
    UpToReport site q typeScript rust path w₁.disk d' := by
  obtain ⟨hholds, -⟩ := settle_eq_ok_of_write hcheck hdistinct hsettle
  exact {
    written := fun _ => ⟨hgrown.read hholds.typeScript, hgrown.read hholds.rust⟩
    checked := by simp [hcheck]
    elsewhere := by
      intro l hl hl'
      rw [← hholds.elsewhere l hl hl']
      exact hgrown l }

theorem aftermath_of_deliver_eq_error {s : Survey} {w₁ w₂ w' : World}
    {records : List Report.ArtifactRecord} (hdistinct : DistinctOutputs site.cwd q)
    (hsurvey : surveyed site q w₁.disk = .ok s)
    (hsettle : (settle site q (artifacts q typeScript rust)).result w₁ = (.ok records, w₂))
    (hdeliver : (deliver site q (reportOf q s records)).result w₂ = (.error (.failed f), w')) :
    Aftermath site q typeScript rust f w₁.disk w'.disk .report := by
  obtain ⟨path, error, d₁, hpath, hf, hgrown, hspoilt⟩ := deliver_eq_error hdeliver
  refine ⟨path, error, s, records, d₁, hpath, hf, hsurvey, ?_, hspoilt⟩
  cases hcheck : q.check with
  | true => exact upToReport_of_check hcheck hsettle hgrown
  | false => exact upToReport_of_write hcheck hdistinct hsettle hgrown

end Aftermath

theorem exists_aftermath_of_failed_run {site : Site} {q : Request} {w w' : World} {f : Failure}
    (hdistinct : DistinctOutputs site.cwd q)
    (hrun : (run site q).result w = (.error (.failed f), w')) :
    f.stage ≠ .writeFailure ∧ w'.disk = w.disk ∨
      ∃ text typeScript rust o, Renders site q w.disk text typeScript rust ∧
        Aftermath site q typeScript rust f w.disk w'.disk o ∧
        (q.check = true → o = .report) := by
  rcases run_eq_error hrun with ⟨hsurvey, hdisk⟩ |
    ⟨s, typeScript, rust, w₁, hprepared, hw₁, hstop⟩
  · exact .inl ⟨(early_of_surveyed_eq_error hsurvey).1, hdisk⟩
  obtain ⟨text, hrenders, -⟩ := hprepared.renders
  have hsurvey := hprepared.surveyed
  rw [← hw₁] at hsurvey
  rcases hstop with hsettle | ⟨records, w₂, hsettle, hdeliver⟩
  · cases hcheck : q.check with
    | true =>
        rw [settle, if_pos hcheck] at hsettle
        obtain ⟨hcompared, hdisk⟩ := (reads_compare site _).of_result hsettle
        have hstage := stage_of_compared_eq_error hcompared.symm
        exact .inl ⟨by simp [hstage], hdisk.trans hw₁⟩
    | false =>
        rcases aftermath_of_settle_eq_error hdistinct hw₁ hcheck hsettle with hfirst | hsecond
        · exact .inr ⟨text, typeScript, rust, .typeScript, hrenders, hfirst, by simp⟩
        · exact .inr ⟨text, typeScript, rust, .rust, hrenders, hsecond, by simp⟩
  · have hreport := aftermath_of_deliver_eq_error hdistinct hsurvey hsettle hdeliver
    rw [hw₁] at hreport
    exact .inr ⟨text, typeScript, rust, .report, hrenders, hreport, fun _ => rfl⟩

theorem disk_of_failed_run {site : Site} {q : Request} {w w' : World} {f : Failure}
    (hdistinct : DistinctOutputs site.cwd q)
    (hrun : (run site q).result w = (.error (.failed f), w')) :
    (f.stage ≠ .writeFailure → w'.disk = w.disk) ∧
      (f.stage = .writeFailure →
        ∃ text typeScript rust, Renders site q w.disk text typeScript rust ∧
          (∃! o, Aftermath site q typeScript rust f w.disk w'.disk o) ∧
          (q.check = true → Aftermath site q typeScript rust f w.disk w'.disk .report)) := by
  rcases exists_aftermath_of_failed_run hdistinct hrun with ⟨hstage, hdisk⟩ |
    ⟨text, typeScript, rust, o, hrenders, ho, hreport⟩
  · constructor
    · intro _
      exact hdisk
    · intro hwrite
      exact absurd hwrite hstage
  · constructor
    · intro hstage
      exact absurd ho.stage hstage
    · intro _
      refine ⟨text, typeScript, rust, hrenders, ⟨o, ho, fun o' ho' => ho.unique ho'⟩, ?_⟩
      intro hcheck
      rw [hreport hcheck] at ho
      exact ho

/-- With an old document in place, a check changes nothing.  A run that writes, with its report
below a file, has both documents and one directory to show for it. -/
theorem disk_of_failed_run_of_old_document :
    let check : Request := { smallRequest with check := true }
    let below : Request := { smallRequest with
      report := some ⟨.root, ["r", "out", Path.dotDot, "src", "generated-types.ts", "report"]⟩ }
    (∃ f w',
      (run smallSite check).result { disk := smallDisk } = (.error (.failed f), w') ∧
        f.stage = .staleArtifact ∧ w'.disk = smallDisk) ∧
      ∃ f w' text typeScript rust,
        (run smallSite below).result { disk := smallDisk } = (.error (.failed f), w') ∧
          w'.disk.get? ["r", "out"] = some .directory ∧
          Renders smallSite below smallDisk text typeScript rust ∧
          ∃! o, Aftermath smallSite below typeScript rust f smallDisk w'.disk o := by
  intro check below
  constructor
  · obtain ⟨f, w', hrun, hstage⟩ := exists_result_of_stage? (x := run smallSite check)
      (w := { disk := smallDisk }) (s := .staleArtifact) (by decide +kernel)
    have hdisk := (disk_of_failed_run (distinctOutputs_standard [] rfl) hrun).1
    exact ⟨f, w', hrun, hstage, hdisk (by simp [hstage])⟩
  · obtain ⟨f, w', hrun, hstage⟩ := exists_result_of_stage? (x := run smallSite below)
      (w := { disk := smallDisk }) (s := .writeFailure) (by decide +kernel)
    have hmade : ((run smallSite below).result { disk := smallDisk }).2.disk.get?
        ["r", "out"] = some .directory := by
      decide +kernel
    rw [hrun] at hmade
    obtain ⟨text, typeScript, rust, hrenders, hafter, -⟩ :=
      (disk_of_failed_run (distinctOutputs_standard [] rfl) hrun).2 hstage
    exact ⟨f, w', text, typeScript, rust, hrun, hmade, hrenders, hafter⟩

/-- With room for three bytes, the TypeScript document is lost after its first three, and so is the
old one. -/
theorem document_lost_by_failed_run :
    DistinctOutputs (narrowSite 3).cwd smallRequest ∧
      ∃ f w', (run (narrowSite 3) smallRequest).result { disk := smallDisk } =
          (.error (.failed f), w') ∧
        f.stage = .writeFailure ∧ named? f = some .typeScript ∧
        smallDisk.read [] (typeScriptDestination smallRequest) = .ok (Utf8.encode "old") ∧
        w'.disk.read [] (typeScriptDestination smallRequest) = .ok (Utf8.encode "/**") := by
  have hend : ((run (narrowSite 3) smallRequest).result { disk := smallDisk }).1 =
      .error (.failed (.artifactAccess "typescript" (typeScriptDestination smallRequest)
        { number := 27, phrase := "File too large" })) := by
    decide +kernel
  have hlost : ((run (narrowSite 3) smallRequest).result { disk := smallDisk }).2.disk.read []
      (typeScriptDestination smallRequest) = .ok (Utf8.encode "/**") := by
    decide +kernel
  obtain ⟨f, w', hrun, hstage⟩ := exists_result_of_stage? (x := run (narrowSite 3) smallRequest)
    (w := { disk := smallDisk }) (s := .writeFailure) (by decide +kernel)
  rw [hrun] at hend hlost
  obtain rfl := Stop.failed.inj (Except.error.inj hend)
  exact ⟨distinctOutputs_standard [] rfl, _, w', hrun, hstage, by simp [named?],
    by decide +kernel, hlost⟩

end EmulationBindings.Generation
