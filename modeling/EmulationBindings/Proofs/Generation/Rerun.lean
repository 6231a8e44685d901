import EmulationBindings.Proofs.Document.Returns
import EmulationBindings.Proofs.Generation.Modes

/-!
# Running again

A run that writes leaves its source alone, so a run after it is about to put out the same two
documents, and it finds them in place.  Writing them again changes nothing.  Whether the run finds
them up to date is another matter: a name with a carriage return in it is written as it stands and
read back with a line feed in its place, so its documents are out of date for ever.
-/

namespace EmulationBindings.Generation

open EmulationBindings.Action
open EmulationBindings.Document (HasReturn return_mem_typeScript_iff return_mem_rust_iff)

section

variable {site : Site} {q : Request} {d d' : Disk} {s : Survey} {typeScript rust : Text}

theorem WroteBoth.read_of_ne (hwrote : WroteBoth site q typeScript rust d d') {p : Path}
    {content : Bytes}
    (hne : p.target site.cwd ≠ (typeScriptDestination q).target site.cwd ∧
      p.target site.cwd ≠ (rustDestination q).target site.cwd)
    (hread : d.read site.cwd p = .ok content) :
    d'.read site.cwd p = .ok content := by
  obtain ⟨d₁, hfirst, hsecond⟩ := hwrote
  exact hsecond.read_of_ne hne.2 (hfirst.read_of_ne hne.1 hread)

/-- Writing both documents does not change what they are made from. -/
theorem Prepared.of_wroteBoth (hrecipe : q.recipe = .standard)
    (hprepared : Prepared site q d s typeScript rust)
    (hwrote : WroteBoth site q typeScript rust d d') :
    Prepared site q d' s typeScript rust where
  surveyed := surveyed_of_read hprepared.surveyed fun package _ hread =>
    hwrote.read_of_ne (tablePath_target_ne site.cwd hrecipe package) hread
  rendered := hprepared.rendered

theorem WroteBoth.get?_eq_of_read (hwrote : WroteBoth site q typeScript rust d d')
    (hdistinct : DistinctOutputs site.cwd q)
    (htypeScript : d.read site.cwd (typeScriptDestination q) = .ok (Utf8.encode typeScript))
    (hrust : d.read site.cwd (rustDestination q) = .ok (Utf8.encode rust)) (l : Location) :
    d'.get? l = d.get? l := by
  obtain ⟨d₁, hfirst, hsecond⟩ := hwrote
  have hrust₁ : d₁.read site.cwd (rustDestination q) = .ok (Utf8.encode rust) :=
    hfirst.read_of_ne hdistinct.symm hrust
  rw [hsecond.get?_eq_of_read hrust₁, hfirst.get?_eq_of_read htypeScript]

/-- Documents in place are out of date when a name in them has a carriage return. -/
theorem judges_of_read (hrecipe : q.recipe = .standard)
    (hprepared : Prepared site q d s typeScript rust)
    (htypeScript : d'.read site.cwd (typeScriptDestination q) = .ok (Utf8.encode typeScript))
    (hrust : d'.read site.cwd (rustDestination q) = .ok (Utf8.encode rust)) :
    Judges site q typeScript rust d' (HasReturn (s.tables.profiles ++ s.tables.systems))
      (HasReturn (s.tables.profiles ++ s.tables.systems)) := by
  have hrendered := hprepared.rendered
  rw [hrecipe] at hrendered
  obtain ⟨htypeScriptOk, hrustOk⟩ := Tables.rendered_eq_ok_iff.mp hrendered
  constructor
  · rw [Artifact.isStale_of_read_content (a := typeScriptArtifact q typeScript) htypeScript]
    exact congrArg _ (decide_eq_decide.mpr (return_mem_typeScript_iff htypeScriptOk))
  · rw [Artifact.isStale_of_read_content (a := rustArtifact q rust) hrust]
    exact congrArg _ (decide_eq_decide.mpr (return_mem_rust_iff hrustOk))

end

theorem check_and_rerun_of_written {site : Site} {q : Request} {w w' u : World}
    {report : Report} (hrecipe : q.recipe = .standard) (hreport : q.report = none)
    (hcheck : q.check = false) (hrun : (run site q).result w = (.ok report, w'))
    (hsame : u.disk = w'.disk) :
    ((∃ again v, (run site { q with check := true }).result u = (.ok again, v)) ↔
        ¬ HasReturn (report.profiles ++ report.systems)) ∧
      ∃ again v, (run site q).result u = (.ok again, v) ∧
        (∀ l, v.disk.get? l = u.disk.get? l) ∧
        ((∀ record ∈ again.artifacts, record.changed = false) ↔
          ¬ HasReturn (report.profiles ++ report.systems)) := by
  obtain ⟨s, typeScript, rust, changed, changed', hprepared, -, hwrote, hlets, hreportOf⟩ :=
    written_of_run hrecipe hreport hcheck hrun
  have hnames : report.profiles ++ report.systems = s.tables.profiles ++ s.tables.systems := by
    rw [hreportOf]
    rfl
  rw [hnames]
  have hdistinct := distinctOutputs_standard site.cwd hrecipe
  have hholds := hwrote.holdsBoth hdistinct
  have hprepared' : Prepared site q u.disk s typeScript rust := by
    rw [hsame]
    exact hprepared.of_wroteBoth hrecipe hwrote
  have htypeScript : u.disk.read site.cwd (typeScriptDestination q) =
      .ok (Utf8.encode typeScript) := by
    rw [hsame]
    exact hholds.typeScript
  have hrust : u.disk.read site.cwd (rustDestination q) = .ok (Utf8.encode rust) := by
    rw [hsame]
    exact hholds.rust
  have hjudges := judges_of_read hrecipe hprepared htypeScript hrust
  constructor
  · obtain ⟨e, v, hend, -, hchanged, hcurrent⟩ := exists_result_run_of_judges
      (q := { q with check := true }) hreport rfl (hprepared'.withCheck true)
      (hjudges.withCheck true) rfl
    rw [hend]
    constructor
    · rintro ⟨again, v, hok⟩ hreturn
      obtain ⟨f, rfl, -⟩ := hchanged (by simpa [Artifact.record] using hreturn)
      simp at hok
    · intro hreturn
      rw [hcurrent (by simpa [Artifact.record] using hreturn)]
      exact ⟨_, _, rfl⟩
  · obtain ⟨again, v, hagain⟩ :=
      exists_result_run_of_read hrecipe hreport hcheck hprepared' htypeScript hrust hlets
    obtain ⟨s', typeScript', rust', again₁, again₂, hprepared'', hjudges', hwrote', -, rfl⟩ :=
      written_of_run hrecipe hreport hcheck hagain
    obtain ⟨rfl, rfl, rfl⟩ := hprepared'.unique hprepared''
    obtain ⟨rfl, rfl⟩ := hjudges'.unique hjudges
    refine ⟨_, v, hagain, hwrote'.get?_eq_of_read hdistinct htypeScript hrust, ?_⟩
    simp [reportOf, Artifact.record]

theorem check_and_rerun_of_written_small :
    ∃ report w' checked v again v',
      (run smallSite quietRequest).result { disk := smallDisk } = (.ok report, w') ∧
        (run smallSite { quietRequest with check := true }).result w' = (.ok checked, v) ∧
        (run smallSite quietRequest).result w' = (.ok again, v') ∧
        (∀ l, v'.disk.get? l = w'.disk.get? l) ∧
        ∀ record ∈ again.artifacts, record.changed = false := by
  obtain ⟨report, w', hrun, hnames⟩ := exists_result_of_endsWith
    (x := run smallSite quietRequest) (w := { disk := smallDisk })
    (p := fun report _ => decide ¬ HasReturn (report.profiles ++ report.systems))
    (by decide +kernel)
  have hreturn := of_decide_eq_true hnames
  obtain ⟨hcheck, again, v', hagain, hsame, hrecords⟩ :=
    check_and_rerun_of_written rfl rfl rfl hrun (u := w') rfl
  obtain ⟨checked, v, hchecked⟩ := hcheck.mpr hreturn
  exact ⟨report, w', checked, v, again, v', hrun, hchecked, hagain, hsame, hrecords.mpr hreturn⟩

/-- The small crate, with a carriage return in the name of a profile. -/
def returnDisk : Disk :=
  smallDisk.set ["d", "src", "emulation", "mod.rs"]
    (.file (Utf8.encode "=> (\"a\rb\"\nplain,\nEmulationOS\n=> \"b\"\n"))

theorem written_documents_out_of_date :
    ∃ report w' f v again v',
      (run smallSite quietRequest).result { disk := returnDisk } = (.ok report, w') ∧
        (run smallSite { quietRequest with check := true }).result w' = (.error (.failed f), v) ∧
        f.stage = .staleArtifact ∧
        (run smallSite quietRequest).result w' = (.ok again, v') ∧
        ∀ record ∈ again.artifacts, record.changed = true := by
  obtain ⟨report, w', hrun, hends⟩ := exists_result_of_endsWith
    (x := run smallSite quietRequest) (w := { disk := returnDisk })
    (p := fun _ w' =>
      decide (stage? ((run smallSite { quietRequest with check := true }).result w').1 =
        some .staleArtifact) &&
      endsWith (fun again _ => again.artifacts.all (·.changed))
        ((run smallSite quietRequest).result w'))
    (by decide +kernel)
  obtain ⟨hstage, hagain⟩ := (Bool.and_eq_true _ _).mp hends
  obtain ⟨f, v, hcheck, hstale⟩ := exists_result_of_stage? (of_decide_eq_true hstage)
  obtain ⟨again, v', hrerun, hchanged⟩ := exists_result_of_endsWith hagain
  exact ⟨report, w', f, v, again, v', hrun, hcheck, hstale, hrerun, by simpa using hchanged⟩

end EmulationBindings.Generation
