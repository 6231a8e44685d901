import EmulationBindings.Proofs.Generation.Run
import EmulationBindings.Proofs.Report.Fields
import EmulationBindings.Proofs.Text.Utf8

/-!
# The report as a file

The file of a report is one line feed after a text of ASCII characters.  The decoder that reads the
answer of the build tool reads all fields of the report back from it, so two reports never share
their bytes.
-/

namespace EmulationBindings.Generation

open EmulationBindings.Action

variable {r : Report}

theorem read_of_writeReport {site : Site} {path : Path} {w w' : World}
    (hwrite : (writeReport site r path).result w = (.ok (), w')) :
    w'.disk.read site.cwd path = .ok (Utf8.encode r.text) := by
  obtain ⟨d, -, hwrote⟩ := writeReport_eq_ok hwrite
  exact hwrote.read

theorem readMetadata_text (hr : r.Legible) :
    Metadata.readMetadata (Utf8.encode r.text) = .ok r.members := by
  unfold Metadata.readMetadata
  rw [Utf8.decode_encode]
  simp only [Report.decode_text hr]

theorem exists_block_eq_append (depth : Nat) (opening closing : Char) (entries : List Text) :
    ∃ start, Json.block depth opening closing entries = start ++ [closing] := by
  unfold Json.block
  split
  · exact ⟨[opening], rfl⟩
  · exact ⟨_, rfl⟩

theorem exists_encode_text (r : Report) :
    ∃ body, Utf8.encode r.text = body ++ [10] ∧ body.getLast? ≠ some 10 := by
  obtain ⟨start, hstart⟩ := exists_block_eq_append 0 '\x7b' '\x7d'
    (Json.renderMembers 1 r.members)
  have htext : r.text = start ++ ['\x7d'] ++ ['\n'] := congrArg (· ++ ['\n']) hstart
  refine ⟨Utf8.encode start ++ [125], ?_, by simp⟩
  rw [htext]
  simp [Utf8.encode, Utf8.encodeChar]

/-- The file that a report was written to gives the report back. -/
theorem report_of_written_file {site : Site} {path : Path} {w w' : World}
    (hr : r.Legible) (hwrite : (writeReport site r path).result w = (.ok (), w')) :
    ∃ body : Bytes, w'.disk.read site.cwd path = .ok (body ++ [10]) ∧
      body.getLast? ≠ some 10 ∧ (∀ b ∈ body ++ [10], b.toNat < 0x80) ∧
      Metadata.readMetadata (body ++ [10]) = .ok r.members ∧
      r.members.map Prod.fst = Report.fieldNames ∧ Report.ofMembers r.members = .ok r ∧
      Json.Every Json.Ascending (.object r.members) ∧
      ∀ (site' : Site) (r' : Report) (path' : Path) (v v' : World), r'.Legible →
        (writeReport site' r' path').result v = (.ok (), v') →
        v'.disk.read site'.cwd path' = .ok (body ++ [10]) → r' = r := by
  obtain ⟨body, hbody, hlast⟩ := exists_encode_text r
  refine ⟨body, ?_⟩
  rw [← hbody]
  refine ⟨read_of_writeReport hwrite, hlast, ?_, readMetadata_text hr, Report.map_fst_members r,
    Report.ofMembers_members r, Report.ascending_members r, ?_⟩
  · exact fun b hb => Utf8.toNat_lt_of_mem_encode (Report.isAscii_text hr) hb
  · intro site' r' path' v v' hr' hwrite' hsame
    have hbytes : Utf8.encode r'.text = Utf8.encode r.text :=
      Except.ok.inj ((read_of_writeReport hwrite').symm.trans hsame)
    have hmembers := readMetadata_text hr'
    rw [hbytes, readMetadata_text hr] at hmembers
    exact Report.members_inj.mp (Except.ok.inj hmembers).symm

/-- A report with names that need escapes, a negative count and a record. -/
def escapedReport : Report where
  recipe := "v0"
  dependencyName := "wreq-util"
  sourcePath := "/d/src/\x01\\.rs"
  sourceSha256 := []
  profiles := ["\"é\uD7FF😀\""]
  profileCount := -12
  artifacts := [{ kind := "rust", path := "src/a b", sha256 := "0f", changed := true }]

theorem report_of_written_file_of_escapes :
    ∃ w' body, (writeReport smallSite escapedReport ⟨.root, ["r", "out", "report"]⟩).result
        { disk := smallDisk } = (.ok (), w') ∧
      w'.disk.read smallSite.cwd ⟨.root, ["r", "out", "report"]⟩ = .ok (body ++ [10]) ∧
      Metadata.readMetadata (body ++ [10]) = .ok escapedReport.members := by
  obtain ⟨⟨⟩, w', hwrite⟩ := exists_result_of_isOk
    (x := writeReport smallSite escapedReport ⟨.root, ["r", "out", "report"]⟩)
    (w := { disk := smallDisk }) (by decide +kernel)
  have hlegible : escapedReport.Legible := ⟨by decide, by decide, by simp [escapedReport]⟩
  obtain ⟨body, hread, -, -, hmetadata, -⟩ := report_of_written_file hlegible hwrite
  exact ⟨w', body, hwrite, hread, hmetadata⟩

end EmulationBindings.Generation
