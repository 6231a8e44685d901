import EmulationBindings.Proofs.Generation.Run

/-!
# What a run delivers

A run that writes and ends well leaves at both destinations the documents of the names in the
source as it was before the run, whatever was there, and its report says what it has left.  The
report itself may go anywhere but to a destination: it would take the place of the document.
-/

namespace EmulationBindings.Generation

/-- A report tells what this source holds and what the destinations hold on this disk. -/
structure Tells (site : Site) (q : Request) (text : Text) (d : Disk) (report : Report) :
    Prop where
  profiles : report.profiles = Table.profileNames q.recipe text
  systems : report.systems = Table.systemNames q.recipe text
  profileCount : report.profileCount = (Table.profileNames q.recipe text).length
  systemCount : report.systemCount = (Table.systemNames q.recipe text).length
  profileCount_pos : 0 < report.profileCount
  systemCount_pos : 0 < report.systemCount
  artifacts : ∃ typeScriptBytes rustBytes changed changed',
    d.read site.cwd (typeScriptDestination q) = .ok typeScriptBytes ∧
      d.read site.cwd (rustDestination q) = .ok rustBytes ∧
      report.artifacts = [
        { kind := "typescript"
          path := (typeScriptDestination q).text
          sha256 := Sha256.hexDigest typeScriptBytes
          changed := changed },
        { kind := "rust"
          path := (rustDestination q).text
          sha256 := Sha256.hexDigest rustBytes
          changed := changed' }]

theorem read_of_deliver_eq_ok {site : Site} {q : Request} {r report : Report} {w w' : World}
    {p : Path} {content : Bytes}
    (hreport : ∀ path, q.report = some path → path.target site.cwd ≠ p.target site.cwd)
    (hdeliver : (deliver site q r).result w = (.ok report, w'))
    (hread : w.disk.read site.cwd p = .ok content) :
    w'.disk.read site.cwd p = .ok content := by
  rcases (deliver_eq_ok hdeliver).2 with ⟨-, hdisk⟩ | ⟨path, d, hpath, hgrown, hwrote⟩
  · rw [hdisk]
    exact hread
  · exact hwrote.read_of_ne (hreport path hpath).symm (hgrown.read hread)

theorem written_documents_of_run {site : Site} {q : Request} {w w' : World} {report : Report}
    (hcheck : q.check = false)
    (houtputs : q.recipe = .standard ∨ DistinctOutputs site.cwd q)
    (hreport : ∀ path, q.report = some path →
      path.target site.cwd ≠ (typeScriptDestination q).target site.cwd ∧
        path.target site.cwd ≠ (rustDestination q).target site.cwd)
    (hrun : (run site q).result w = (.ok report, w')) :
    ∃ text typeScript rust,
      Renders site q w.disk text typeScript rust ∧
        w'.disk.read site.cwd (typeScriptDestination q) = .ok (Utf8.encode typeScript) ∧
        w'.disk.read site.cwd (rustDestination q) = .ok (Utf8.encode rust) ∧
        Tells site q text w'.disk report := by
  have hdistinct : DistinctOutputs site.cwd q :=
    houtputs.elim (distinctOutputs_standard site.cwd) id
  obtain ⟨s, typeScript, rust, records, w₁, w₂, hprepared, -, hsettle, hdeliver⟩ :=
    run_eq_ok hrun
  obtain ⟨text, hrenders, htables, hprofiles, hsystems⟩ := hprepared.renders
  obtain ⟨hholds, changed, changed', hrecords⟩ :=
    settle_eq_ok_of_write hcheck hdistinct hsettle
  have htypeScript :=
    read_of_deliver_eq_ok (fun path hpath => (hreport path hpath).1) hdeliver
      hholds.typeScript
  have hrust :=
    read_of_deliver_eq_ok (fun path hpath => (hreport path hpath).2) hdeliver hholds.rust
  obtain rfl := (deliver_eq_ok hdeliver).1
  refine ⟨text, typeScript, rust, hrenders, htypeScript, hrust, ?_⟩
  exact {
    profiles := by simp [reportOf, htables]
    systems := by simp [reportOf, htables]
    profileCount := by simp [reportOf, htables]
    systemCount := by simp [reportOf, htables]
    profileCount_pos := by simpa [reportOf, htables, List.length_pos_iff] using hprofiles
    systemCount_pos := by simpa [reportOf, htables, List.length_pos_iff] using hsystems
    artifacts := ⟨_, _, changed, changed', htypeScript, hrust, hrecords⟩ }

theorem written_documents_of_run_of_old_document :
    ∃ report w' text typeScript rust,
      (run smallSite smallRequest).result { disk := smallDisk } = (.ok report, w') ∧
        Renders smallSite smallRequest smallDisk text typeScript rust ∧
        w'.disk.read [] (typeScriptDestination smallRequest) = .ok (Utf8.encode typeScript) ∧
        w'.disk.read [] (rustDestination smallRequest) = .ok (Utf8.encode rust) ∧
        Tells smallSite smallRequest text w'.disk report := by
  obtain ⟨report, w', hrun⟩ := Action.exists_result_of_isOk (x := run smallSite smallRequest)
    (w := { disk := smallDisk }) (by decide +kernel)
  have hcheck : smallRequest.check = false := rfl
  have hrecipe : smallRequest.recipe = .standard := rfl
  have hreport (path : Path) (hpath : smallRequest.report = some path) :
      path.target [] ≠ (typeScriptDestination smallRequest).target [] ∧
        path.target [] ≠ (rustDestination smallRequest).target [] := by
    obtain rfl := Option.some.inj hpath
    decide +kernel
  obtain ⟨text, typeScript, rust, hwritten⟩ :=
    written_documents_of_run hcheck (.inl hrecipe) hreport hrun
  exact ⟨report, w', text, typeScript, rust, hrun, hwritten⟩

end EmulationBindings.Generation
