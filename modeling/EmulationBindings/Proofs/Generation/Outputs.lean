import EmulationBindings.Proofs.Disk.Growth
import EmulationBindings.Proofs.Generation.Survey
import EmulationBindings.Proofs.Staleness

/-!
# What a run writes

A run writes its two documents one after the other, or compares both with the disk, and then
writes its report when it is asked for one.  Each of these steps either does its whole work on
the disk or says which output it could not write.  A write that the system has stopped leaves the
beginning of its file behind, and a report the directories made for it so far.
-/

namespace EmulationBindings

open EmulationBindings.Action

/-! ## Documents -/

namespace Artifact

theorem result_write (site : Site) (a : Artifact) (w : World) :
    (a.write site).result w =
      match isStale w.disk site.cwd a with
      | .error r => (.error (.refused r), w)
      | .ok changed =>
        match w.disk.write site.cwd site.trouble a.path (Utf8.encode a.content) with
        | (d, some fault) =>
          (.error (stopOf (.artifactAccess a.kind a.path) fault), { w with disk := d })
        | (d, none) =>
          (.ok (a.record changed),
            { w with disk := d, journal := w.journal ++ [.artifactWritten a.path changed] }) := by
  unfold write check
  simp only [result_bind, result_disk]
  cases isStale w.disk site.cwd a with
  | error r => rfl
  | ok changed =>
      simp only [ofRefusal, result_pure, result_change]
      cases w.disk.write site.cwd site.trouble a.path (Utf8.encode a.content) with
      | mk d fault? => cases fault? <;> rfl

/-- What a document that was written takes: a place for its file and a system that lets it through.
What it leaves is the whole document in that place. -/
theorem written_of_write_eq_ok {site : Site} {a : Artifact} {w w' : World}
    {record : Report.ArtifactRecord} (hwrite : (a.write site).result w = (.ok record, w')) :
    ∃ changed, isStale w.disk site.cwd a = .ok changed ∧ record = a.record changed ∧
      w.disk.Wrote site.cwd a.path (Utf8.encode a.content) w'.disk ∧
      site.trouble (a.path.target site.cwd) (Utf8.encode a.content) = none := by
  rw [result_write] at hwrite
  split at hwrite
  · simp at hwrite
  · next changed hstale =>
    rcases w.disk.write_cases site.cwd site.trouble a.path (Utf8.encode a.content) with
      ⟨d, hd, hwrote, htrouble⟩ | ⟨d, fault, hd, -⟩
    · simp only [hd, Prod.mk.injEq, Except.ok.injEq] at hwrite
      obtain ⟨rfl, rfl⟩ := hwrite
      exact ⟨changed, hstale, rfl, hwrote, htrouble⟩
    · simp [hd] at hwrite

theorem write_eq_ok {site : Site} {a : Artifact} {w w' : World} {record : Report.ArtifactRecord}
    (hwrite : (a.write site).result w = (.ok record, w')) :
    ∃ changed, isStale w.disk site.cwd a = .ok changed ∧ record = a.record changed ∧
      w.disk.Wrote site.cwd a.path (Utf8.encode a.content) w'.disk := by
  obtain ⟨changed, hstale, hrecord, hwrote, -⟩ := written_of_write_eq_ok hwrite
  exact ⟨changed, hstale, hrecord, hwrote⟩

theorem write_eq_error {site : Site} {a : Artifact} {w w' : World} {e : Stop}
    (hwrite : (a.write site).result w = (.error e, w')) :
    w.disk.Spoilt site.trouble site.cwd a.path (Utf8.encode a.content) w'.disk ∧
      ∀ f, e = .failed f → ∃ error, f = .artifactAccess a.kind a.path error := by
  rw [result_write] at hwrite
  split at hwrite
  · simp only [Prod.mk.injEq, Except.error.injEq] at hwrite
    obtain ⟨rfl, rfl⟩ := hwrite
    exact ⟨.untouched, by simp⟩
  · rcases w.disk.write_cases site.cwd site.trouble a.path (Utf8.encode a.content) with
      ⟨d, hd, -⟩ | ⟨d, fault, hd, hspoilt⟩
    · simp [hd] at hwrite
    · simp only [hd, Prod.mk.injEq, Except.error.injEq] at hwrite
      obtain ⟨rfl, rfl⟩ := hwrite
      exact ⟨hspoilt, fun f hf => exists_of_stopOf_eq_failed hf⟩

/-- A file that can be read can be written over, if the system lets it. -/
theorem exists_result_write {site : Site} {a : Artifact} {w : World} {old : Bytes}
    (hread : w.disk.read site.cwd a.path = .ok old)
    (htrouble : site.trouble (a.path.target site.cwd) (Utf8.encode a.content) = none) :
    ∃ record w', (a.write site).result w = (.ok record, w') := by
  obtain ⟨d, hwrite⟩ := Disk.exists_write_of_read hread htrouble
  rw [result_write, isStale_of_read hread, hwrite]
  exact ⟨_, _, rfl⟩

end Artifact

namespace Generation

/-! ## Two documents -/

theorem writeBoth_eq_ok {site : Site} {a b : Artifact} {w w' : World}
    {records : List Report.ArtifactRecord}
    (hwrite : ([a, b].mapM (Artifact.write site)).result w = (.ok records, w')) :
    ∃ changed changed' d, records = [a.record changed, b.record changed'] ∧
      Artifact.isStale w.disk site.cwd a = .ok changed ∧
      w.disk.Wrote site.cwd a.path (Utf8.encode a.content) d ∧
      Artifact.isStale d site.cwd b = .ok changed' ∧
      d.Wrote site.cwd b.path (Utf8.encode b.content) w'.disk ∧
      site.trouble (a.path.target site.cwd) (Utf8.encode a.content) = none ∧
      site.trouble (b.path.target site.cwd) (Utf8.encode b.content) = none := by
  simp only [List.mapM_cons, List.mapM_nil] at hwrite
  obtain ⟨first, w₁, hfirst, hwrite⟩ := ok_of_bind hwrite
  obtain ⟨rest, w₂, hrest, hpure⟩ := ok_of_bind hwrite
  obtain ⟨second, w₃, hsecond, hnil⟩ := ok_of_bind hrest
  obtain ⟨changed, hstale, rfl, hwrote, hlet⟩ := Artifact.written_of_write_eq_ok hfirst
  obtain ⟨changed', hstale', rfl, hwrote', hlet'⟩ := Artifact.written_of_write_eq_ok hsecond
  cases hnil
  cases hpure
  exact ⟨changed, changed', w₁.disk, rfl, hstale, hwrote, hstale', hwrote', hlet, hlet'⟩

/-- When a document cannot be written, all that has changed is the one written before it and its own
file, which a write that was stopped has begun. -/
theorem writeBoth_eq_error {site : Site} {a b : Artifact} {w w' : World} {f : Failure}
    (hwrite : ([a, b].mapM (Artifact.write site)).result w = (.error (.failed f), w')) :
    (∃ error, f = .artifactAccess a.kind a.path error) ∧
        w.disk.Spoilt site.trouble site.cwd a.path (Utf8.encode a.content) w'.disk ∨
      (∃ error, f = .artifactAccess b.kind b.path error) ∧
        ∃ d, w.disk.Wrote site.cwd a.path (Utf8.encode a.content) d ∧
          d.Spoilt site.trouble site.cwd b.path (Utf8.encode b.content) w'.disk := by
  simp only [List.mapM_cons, List.mapM_nil] at hwrite
  rcases error_of_bind hwrite with hfirst | ⟨first, w₁, hfirst, hwrite⟩
  · obtain ⟨hspoilt, hnamed⟩ := Artifact.write_eq_error hfirst
    exact .inl ⟨hnamed f rfl, hspoilt⟩
  obtain ⟨changed, -, -, hwrote⟩ := Artifact.write_eq_ok hfirst
  rcases error_of_bind hwrite with hrest | ⟨rest, w₂, -, hpure⟩
  · rcases error_of_bind hrest with hsecond | ⟨second, w₃, -, hnil⟩
    · obtain ⟨hspoilt, hnamed⟩ := Artifact.write_eq_error hsecond
      exact .inr ⟨hnamed f rfl, w₁.disk, hwrote, hspoilt⟩
    · simp [result_pure] at hnil
  · simp at hpure

/-! ## Comparing -/

/-- Every document with whether it is out of date. -/
def judged (site : Site) (d : Disk) (as : List Artifact) :
    Except Stop (List (Artifact × Bool)) :=
  as.mapM fun a => do
    let changed ← (Artifact.isStale d site.cwd a).mapError .refused
    return (a, changed)

def compared (site : Site) (as : List Artifact) (d : Disk) :
    Except Stop (List Report.ArtifactRecord) := do
  let all ← judged site d as
  if all.filter (·.2) ≠ [] then
    .error (.failed (.outOfDate ((all.filter (·.2)).map (·.1.path))))
  else return all.map fun (a, changed) => a.record changed

theorem reads_check (site : Site) (a : Artifact) :
    (a.check site).Reads fun d => (Artifact.isStale d site.cwd a).mapError .refused :=
  reads_disk.bind fun d => reads_ofRefusal (Artifact.isStale d site.cwd a)

theorem reads_compare (site : Site) (as : List Artifact) :
    (compare site as).Reads (compared site as) := by
  have hjudge : (as.mapM fun a => do return (a, ← a.check site) :
      Action (List (Artifact × Bool))).Reads fun d => judged site d as :=
    Reads.mapM (fun a => (reads_check site a).bind fun changed => reads_pure (a, changed)) as
  refine hjudge.bind fun all => ?_
  by_cases hstale : all.filter (·.2) = []
  · simp only [hstale, ne_eq, not_true_eq_false, if_false]
    exact reads_pure _
  · simp only [hstale, ne_eq, not_false_eq_true, if_true]
    exact (reads_fail _).bind fun _ => reads_pure _

theorem judged_eq_ok_iff {site : Site} {d : Disk} {as : List Artifact}
    {all : List (Artifact × Bool)} :
    judged site d as = .ok all ↔
      all.map Prod.fst = as ∧
        ∀ entry ∈ all, Artifact.isStale d site.cwd entry.1 = .ok entry.2 := by
  induction as generalizing all with
  | nil =>
      simp only [judged, List.mapM_nil, pure, Except.pure, Except.ok.injEq,
        List.map_eq_nil_iff]
      constructor
      · rintro rfl
        simp
      · rintro ⟨rfl, -⟩
        rfl
  | cons a rest ih =>
      have hcons : judged site d (a :: rest) = (do
          let changed ← (Artifact.isStale d site.cwd a).mapError .refused
          let more ← judged site d rest
          return (a, changed) :: more) := by
        simp [judged, List.mapM_cons]
      rw [hcons]
      constructor
      · intro hjudged
        obtain ⟨changed, hstale, hjudged⟩ := exists_of_bind_eq_ok hjudged
        obtain ⟨more, hmore, hjudged⟩ := exists_of_bind_eq_ok hjudged
        obtain rfl := Except.ok.inj hjudged
        obtain ⟨hnames, hall⟩ := ih.mp hmore
        refine ⟨by simp [hnames], fun entry hentry => ?_⟩
        rcases List.mem_cons.mp hentry with rfl | hentry
        · exact mapError_eq_ok_iff.mp hstale
        · exact hall entry hentry
      · rintro ⟨hnames, hall⟩
        obtain ⟨entry, more, rfl, rfl, hmore⟩ := List.map_eq_cons_iff.mp hnames
        have hrest := ih.mpr
          ⟨hmore, fun e he => hall e (List.mem_cons_of_mem entry he)⟩
        simp [hall entry List.mem_cons_self, hrest, bind, Except.bind,
          pure, Except.pure]

/-- The records of documents, each with whether it is out of date. -/
def recordsOf (all : List (Artifact × Bool)) : List Report.ArtifactRecord :=
  all.map fun (a, changed) => a.record changed

theorem compared_of_isStale {site : Site} {d : Disk} {all : List (Artifact × Bool)}
    (hall : ∀ entry ∈ all, Artifact.isStale d site.cwd entry.1 = .ok entry.2) :
    compared site (all.map Prod.fst) d =
      if all.filter (·.2) ≠ [] then
        .error (.failed (.outOfDate ((all.filter (·.2)).map (·.1.path))))
      else .ok (recordsOf all) := by
  have hjudged : judged site d (all.map Prod.fst) = .ok all := judged_eq_ok_iff.mpr ⟨rfl, hall⟩
  rw [compared, hjudged]
  rfl

theorem compared_of_current {site : Site} {d : Disk} {all : List (Artifact × Bool)}
    (hall : ∀ entry ∈ all, Artifact.isStale d site.cwd entry.1 = .ok entry.2)
    (hcurrent : ∀ record ∈ recordsOf all, record.changed = false) :
    compared site (all.map Prod.fst) d = .ok (recordsOf all) := by
  have hnone : all.filter (·.2) = [] := by
    rw [List.filter_eq_nil_iff]
    intro entry hentry
    have hentry' := hcurrent _ (List.mem_map_of_mem hentry)
    simpa [Artifact.record] using hentry'
  rw [compared_of_isStale hall, if_neg (by simp [hnone])]

theorem compared_of_changed {site : Site} {d : Disk} {all : List (Artifact × Bool)}
    (hall : ∀ entry ∈ all, Artifact.isStale d site.cwd entry.1 = .ok entry.2)
    (hchanged : ∃ record ∈ recordsOf all, record.changed = true) :
    ∃ f, compared site (all.map Prod.fst) d = .error (.failed f) ∧ f.stage = .staleArtifact ∧
      f.message = "Generated files are out of date: " ++
        Text.commas (((recordsOf all).filter (·.changed)).map (·.path)) := by
  obtain ⟨record, hrecord, htrue⟩ := hchanged
  obtain ⟨entry, hentry, rfl⟩ := List.mem_map.mp hrecord
  have hsome : all.filter (·.2) ≠ [] :=
    List.ne_nil_of_mem (List.mem_filter.mpr ⟨hentry, htrue⟩)
  have hpaths : ((recordsOf all).filter (·.changed)).map (·.path) =
      ((all.filter (·.2)).map (·.1.path)).map Path.text := by
    simp [recordsOf, List.filter_map, Function.comp_def, Artifact.record]
  refine ⟨.outOfDate ((all.filter (·.2)).map (·.1.path)), ?_, rfl, ?_⟩
  · rw [compared_of_isStale hall, if_pos hsome]
  · rw [hpaths]
    rfl

theorem isStale_of_compared_eq_ok {site : Site} {as : List Artifact} {d : Disk}
    {records : List Report.ArtifactRecord}
    (hcompared : compared site as d = .ok records) :
    ∀ a ∈ as, Artifact.isStale d site.cwd a = .ok false := by
  obtain ⟨all, hjudged, hdecided⟩ := exists_of_bind_eq_ok hcompared
  obtain ⟨rfl, hall⟩ := judged_eq_ok_iff.mp hjudged
  split at hdecided
  · simp at hdecided
  · next hstale =>
    intro a ha
    obtain ⟨entry, hentry, rfl⟩ := List.mem_map.mp ha
    rw [ne_eq, not_not, List.filter_eq_nil_iff] at hstale
    have hcurrent : entry.2 = false := by simpa using hstale entry hentry
    rw [hall entry hentry, hcurrent]

/-- Judging a document fails for no reason that belongs to a stage. -/
theorem judged_ne_failed {site : Site} {d : Disk} {f : Failure} (as : List Artifact) :
    judged site d as ≠ .error (.failed f) := by
  intro hjudged
  induction as with
  | nil => simp [judged, pure, Except.pure] at hjudged
  | cons a rest ih =>
      simp only [judged, List.mapM_cons] at hjudged
      rcases or_of_bind_eq_error hjudged with hhead | ⟨entry, -, htail⟩
      · rcases or_of_bind_eq_error hhead with hstale | ⟨changed, -, hpure⟩
        · obtain ⟨r, -, hr⟩ := mapError_eq_error_iff.mp hstale
          simp at hr
        · simp [pure, Except.pure] at hpure
      · rcases or_of_bind_eq_error htail with hrest | ⟨more, -, hpure⟩
        · exact ih hrest
        · simp [pure, Except.pure] at hpure

theorem stage_of_compared_eq_error {site : Site} {as : List Artifact} {d : Disk} {f : Failure}
    (hcompared : compared site as d = .error (.failed f)) :
    f.stage = .staleArtifact := by
  rcases or_of_bind_eq_error hcompared with hjudged | ⟨all, -, hdecided⟩
  · exact absurd hjudged (judged_ne_failed as)
  · split at hdecided
    · cases hdecided
      rfl
    · simp [pure, Except.pure] at hdecided

/-! ## Reporting -/

theorem result_writeReport (site : Site) (r : Report) (path : Path) (w : World) :
    (writeReport site r path).result w =
      match w.disk.ensureDirectory site.cwd site.ascent path.parent with
      | (d, some fault) =>
        (.error (stopOf (.reportAccess path) fault), { w with disk := d })
      | (d, none) =>
        match d.write site.cwd site.trouble path (Utf8.encode r.text) with
        | (d', some fault) =>
          (.error (stopOf (.reportAccess path) fault), { w with disk := d' })
        | (d', none) => (.ok (), { w with disk := d' }) := by
  unfold writeReport
  rw [result_bind, result_change]
  cases w.disk.ensureDirectory site.cwd site.ascent path.parent with
  | mk d fault? =>
      cases fault? with
      | some fault => rfl
      | none =>
          simp only [result_change]
          cases d.write site.cwd site.trouble path (Utf8.encode r.text) with
          | mk d' fault? => cases fault? <;> rfl

theorem ensured_of_writeReport {site : Site} {r : Report} {path : Path} {w w' : World}
    (hreport : (writeReport site r path).result w = (.ok (), w')) :
    ∃ d, w.disk.ensureDirectory site.cwd site.ascent path.parent = (d, none) ∧
      d.Wrote site.cwd path (Utf8.encode r.text) w'.disk := by
  rw [result_writeReport] at hreport
  split at hreport
  · simp at hreport
  · next d hensure =>
    rcases d.write_cases site.cwd site.trouble path (Utf8.encode r.text) with
      ⟨d', hd', hwrote, -⟩ | ⟨d', fault, hd', -⟩
    · rw [hd'] at hreport
      obtain rfl := (Prod.mk.inj hreport).2
      exact ⟨d, hensure, hwrote⟩
    · simp [hd'] at hreport

theorem writeReport_eq_ok {site : Site} {r : Report} {path : Path} {w w' : World}
    (hreport : (writeReport site r path).result w = (.ok (), w')) :
    ∃ d, Disk.GrownAt (path.parent.stations site.cwd) w.disk d ∧
      d.Wrote site.cwd path (Utf8.encode r.text) w'.disk := by
  have hgrown := Disk.grownAt_ensureDirectory w.disk site.cwd site.ascent path.parent
  obtain ⟨d, hensure, hwrote⟩ := ensured_of_writeReport hreport
  rw [hensure] at hgrown
  exact ⟨d, hgrown, hwrote⟩

/-- A report that cannot be written leaves behind the directories made for it, and of its file at
most what a write that was stopped has begun. -/
theorem writeReport_eq_error {site : Site} {r : Report} {path : Path} {w w' : World} {e : Stop}
    (hreport : (writeReport site r path).result w = (.error e, w')) :
    (∀ f, e = .failed f → ∃ error, f = .reportAccess path error) ∧
      ∃ d, Disk.GrownAt (path.parent.stations site.cwd) w.disk d ∧
        d.Spoilt site.trouble site.cwd path (Utf8.encode r.text) w'.disk := by
  have hgrown := Disk.grownAt_ensureDirectory w.disk site.cwd site.ascent path.parent
  rw [result_writeReport] at hreport
  split at hreport
  · next d fault hensure =>
    obtain ⟨he, rfl⟩ := Prod.mk.inj hreport
    rw [hensure] at hgrown
    refine ⟨fun f hf => ?_, d, hgrown, .untouched⟩
    exact exists_of_stopOf_eq_failed ((Except.error.inj he).trans hf)
  · next d hensure =>
    rw [hensure] at hgrown
    rcases d.write_cases site.cwd site.trouble path (Utf8.encode r.text) with
      ⟨d', hd', -⟩ | ⟨d', fault, hd', hspoilt⟩
    · simp [hd'] at hreport
    · rw [hd'] at hreport
      obtain ⟨he, rfl⟩ := Prod.mk.inj hreport
      refine ⟨fun f hf => ?_, d, hgrown, hspoilt⟩
      exact exists_of_stopOf_eq_failed ((Except.error.inj he).trans hf)

end Generation

end EmulationBindings
