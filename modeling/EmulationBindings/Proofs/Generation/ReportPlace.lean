import EmulationBindings.Proofs.Generation.Run

/-!
# Where a report goes

Writing a report makes the directories on the way to it and then the file itself, and no other
place of the disk takes part.  It can end before all directories are there, or with all of them
and no file, or in the middle of the file when the system stops it there.  What was anywhere else on
the disk before is there in each case.
-/

namespace EmulationBindings.Generation

open EmulationBindings.Action

/-- From `d` to `d'` nothing has gone, each directory is still one, and a new directory is on the
way to the report, as the path is written. -/
structure MakesWay (site : Site) (path : Path) (d d' : Disk) : Prop where
  directories : d.KeepsDirectories d'
  present : ∀ l, d.get? l ≠ none → d'.get? l ≠ none
  made : ∀ l, d'.get? l = some .directory →
    d.get? l = some .directory ∨ d.get? l = none ∧ l ∈ path.parent.stations site.cwd

section MakesWay

variable {site : Site} {path : Path} {d d₁ d' : Disk}

theorem makesWay_of_grownAt (hgrown : d.GrownAt (path.parent.stations site.cwd) d') :
    MakesWay site path d d' where
  directories := hgrown.keepsDirectories
  present l hsome := by
    rw [hgrown.get?_eq hsome]
    exact hsome
  made l hdir := by
    rcases hgrown l with hsame | ⟨hplace, hnone, -⟩
    · exact .inl (hsame.symm.trans hdir)
    · exact .inr ⟨hnone, hplace⟩

theorem MakesWay.wrote {content : Bytes} (hmakes : MakesWay site path d d₁)
    (hwrote : d₁.Wrote site.cwd path content d') :
    MakesWay site path d d' where
  directories := hmakes.directories.trans hwrote.keepsDirectories
  present l hsome := by
    by_cases hl : l = path.target site.cwd
    · simp [hl, hwrote.get?_target]
    · rw [hwrote.get?_of_ne hl]
      exact hmakes.present l hsome
  made l hdir := hmakes.made l ((hwrote.get?_eq_directory_iff l).mp hdir)

theorem MakesWay.spoilt {content : Bytes} (hmakes : MakesWay site path d d₁)
    (hspoilt : d₁.Spoilt site.trouble site.cwd path content d') : MakesWay site path d d' := by
  cases hspoilt with
  | untouched => exact hmakes
  | begun _ hwrote => exact hmakes.wrote hwrote

end MakesWay

/-- The same file is at this location, or none is on either disk. -/
def SameFile (d d' : Disk) (l : Location) : Prop :=
  ∀ content, d'.get? l = some (.file content) ↔ d.get? l = some (.file content)

theorem sameFile_of_spoilt {site : Site} {path : Path} {content : Bytes} {d d₁ d' : Disk}
    (hgrown : d.GrownAt (path.parent.stations site.cwd) d₁)
    (hspoilt : d₁.Spoilt site.trouble site.cwd path content d') {l : Location}
    (hne : l ≠ path.target site.cwd) : SameFile d d' l := by
  intro content'
  rw [hspoilt.get?_of_ne hne]
  exact hgrown.get?_eq_file_iff l content'

/-- With success the report is at its path, with a directory at each step of the way, and every
other file is as it was.  With an error every other file is as it was too, and so is the one at the
path, unless the system has stopped the write in it. -/
theorem report_changes_own_path_only (site : Site) (r : Report) (path : Path) (w : World) :
    (∀ w', (writeReport site r path).result w = (.ok (), w') →
      w'.disk.read site.cwd path = .ok (Utf8.encode r.text) ∧
        (∀ l ∈ path.parent.stations site.cwd, w'.disk.get? l = some .directory) ∧
        (∀ l, l ≠ path.target site.cwd → SameFile w.disk w'.disk l) ∧
        MakesWay site path w.disk w'.disk) ∧
      ∀ e w', (writeReport site r path).result w = (.error e, w') →
        (∀ f, e = .failed f → f.stage = .writeFailure) ∧
          (∀ l, l ≠ path.target site.cwd → SameFile w.disk w'.disk l) ∧
          (SameFile w.disk w'.disk (path.target site.cwd) ∨
            ∃ kept error,
              site.trouble (path.target site.cwd) (Utf8.encode r.text) =
                  some (.stopped kept error) ∧
                w'.disk.get? (path.target site.cwd) =
                  some (.file ((Utf8.encode r.text).take kept))) ∧
          MakesWay site path w.disk w'.disk := by
  constructor
  · intro w' hreport
    obtain ⟨d, hensure, hwrote⟩ := ensured_of_writeReport hreport
    have hgrown := Disk.grownAt_ensureDirectory w.disk site.cwd site.ascent path.parent
    rw [hensure] at hgrown
    refine ⟨hwrote.read, ?_, ?_, (makesWay_of_grownAt hgrown).wrote hwrote⟩
    · intro l hl
      exact hwrote.keepsDirectories l (Disk.directories_of_ensureDirectory hensure l hl)
    · intro l hl content
      rw [hwrote.get?_of_ne hl]
      exact hgrown.get?_eq_file_iff l content
  · intro e w' hreport
    obtain ⟨hnamed, d, hgrown, hspoilt⟩ := writeReport_eq_error hreport
    refine ⟨?_, fun l hl => sameFile_of_spoilt hgrown hspoilt hl, ?_,
      (makesWay_of_grownAt hgrown).spoilt hspoilt⟩
    · intro f hf
      obtain ⟨error, rfl⟩ := hnamed f hf
      rfl
    · cases hspoilt with
      | untouched => exact .inl (hgrown.get?_eq_file_iff _)
      | begun hstopped hwrote => exact .inr ⟨_, _, hstopped, hwrote.get?_target⟩

def bareReport : Report where
  recipe := "v0"
  dependencyName := "wreq-util"
  sourcePath := "/d/src/emulation/mod.rs"
  sourceSha256 := []

/-- Both paths go down into a new directory and up again.  One leads to a new file; the other ends
below an old file, when the new directory is made already. -/
theorem report_changes_own_path_only_of_ascending_paths :
    let free : Path := ⟨.root, ["r", "new", Path.dotDot, "out", "report"]⟩
    let blocked : Path :=
      ⟨.root, ["r", "new", Path.dotDot, "src", "generated-types.ts", "report"]⟩
    (∃ w', (writeReport smallSite bareReport free).result { disk := smallDisk } = (.ok (), w') ∧
        w'.disk.read smallSite.cwd free = .ok (Utf8.encode bareReport.text) ∧
        w'.disk.get? ["r", "new"] = some .directory ∧
        MakesWay smallSite free smallDisk w'.disk) ∧
      ∃ f w', (writeReport smallSite bareReport blocked).result { disk := smallDisk } =
          (.error (.failed f), w') ∧
        f.stage = .writeFailure ∧ w'.disk.get? ["r", "new"] = some .directory ∧
        MakesWay smallSite blocked smallDisk w'.disk := by
  intro free blocked
  constructor
  · obtain ⟨⟨⟩, w', hreport⟩ := exists_result_of_isOk
      (x := writeReport smallSite bareReport free) (w := { disk := smallDisk })
      (by decide +kernel)
    have hplace := report_changes_own_path_only smallSite bareReport free { disk := smallDisk }
    obtain ⟨hread, hway, -, hmakes⟩ := hplace.1 w' hreport
    refine ⟨w', hreport, hread, hway _ ⟨["r", "new"], ?_, rfl⟩, hmakes⟩
    exact ⟨[Path.dotDot, "out"], rfl⟩
  · obtain ⟨f, w', hreport, -⟩ := exists_result_of_stage?
      (x := writeReport smallSite bareReport blocked) (w := { disk := smallDisk })
      (s := .writeFailure) (by decide +kernel)
    have hmade : ((writeReport smallSite bareReport blocked).result
        { disk := smallDisk }).2.disk.get? ["r", "new"] = some .directory := by
      decide +kernel
    rw [hreport] at hmade
    have hplace :=
      report_changes_own_path_only smallSite bareReport blocked { disk := smallDisk }
    obtain ⟨hstage, -, -, hmakes⟩ := hplace.2 _ w' hreport
    exact ⟨f, w', hreport, hstage f rfl, hmade, hmakes⟩

/-- With room for two bytes, a report that cannot be written leaves a file with its first two. -/
theorem report_begun_and_given_up :
    let path : Path := ⟨.root, ["r", "report"]⟩
    smallDisk.get? ["r", "report"] = none ∧
      ∃ f w', (writeReport (narrowSite 2) bareReport path).result { disk := smallDisk } =
          (.error (.failed f), w') ∧
        f.stage = .writeFailure ∧
        w'.disk.get? ["r", "report"] = some (.file (Utf8.encode "\x7b\n")) := by
  intro path
  have hbegun : ((writeReport (narrowSite 2) bareReport path).result
      { disk := smallDisk }).2.disk.get? ["r", "report"] =
        some (.file (Utf8.encode "\x7b\n")) := by
    decide +kernel
  obtain ⟨f, w', hreport, hstage⟩ := exists_result_of_stage?
    (x := writeReport (narrowSite 2) bareReport path) (w := { disk := smallDisk })
    (s := .writeFailure) (by decide +kernel)
  rw [hreport] at hbegun
  exact ⟨by decide, f, w', hreport, hstage, hbegun⟩

end EmulationBindings.Generation
