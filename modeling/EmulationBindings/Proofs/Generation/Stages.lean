import EmulationBindings.Proofs.Generation.Run
import EmulationBindings.Proofs.Journal

/-!
# A run from its outset

What a run is about to put out depends on the disk alone, not on whether it will write or check.
Either the survey stops it, or it goes on from an untouched disk with its two documents.  Nothing
before the writing of a document is noted as such in the journal, and a run without a report ends
with its documents.
-/

namespace EmulationBindings

open EmulationBindings.Action

/-! ## Stages that name no document -/

namespace Tables

theorem namesNone_gate (kind dependency : Text) (names : List Text) :
    (gate kind dependency names).NamesNone := by
  unfold gate
  by_cases hnames : names = []
  · simp only [hnames, if_true]
    exact (namesNone_fail _).bind fun _ => by
      split
      · exact (namesNone_note rfl).bind fun _ => namesNone_pure _
      · exact namesNone_pure _
  · simp only [hnames, if_false]
    split
    · exact (namesNone_note rfl).bind fun _ => namesNone_pure _
    · exact namesNone_pure _

theorem namesNone_extract (r : Recipe) (source : Text) : (extract r source).NamesNone :=
  ((namesNone_note rfl).bind fun _ => namesNone_pure (Table.profileNames r source)).bind
    fun profiles => (namesNone_gate "profiles" r.dependency profiles).bind fun _ =>
      ((namesNone_note rfl).bind fun _ => namesNone_pure (Table.scanSystems r source).names).bind
        fun systems => (namesNone_gate "operating systems" r.dependency systems).bind fun _ =>
          namesNone_pure _

theorem namesNone_documents (r : Recipe) (t : Tables) : (t.documents r).NamesNone :=
  (namesNone_ofRefusal _).bind fun _ => (namesNone_ofRefusal _).bind fun _ => namesNone_pure _

end Tables

namespace Generation

theorem namesNone_query (site : Site) (directory : Path) (tool : Text) :
    (Metadata.query site directory tool).NamesNone := by
  unfold Metadata.query
  generalize Metadata.metadataCall directory tool = call
  cases hnul : call.hasNul with
  | true =>
      simp only [hnul, if_true]
      exact (namesNone_note rfl).bind fun _ => (namesNone_called _).bind fun _ =>
        (namesNone_refuse .nulInPath).bind fun _ => namesNone_lift site.outcome.metadata
  | false =>
      simp only [hnul, Bool.false_eq_true, if_false]
      exact (namesNone_note rfl).bind fun _ => (namesNone_called _).bind fun _ =>
        namesNone_lift site.outcome.metadata

theorem namesNone_locate (site : Site) (directory : Path) (r : Recipe) (tool : Text) :
    (Metadata.locate site directory r tool).NamesNone :=
  (namesNone_query site directory tool).bind
    fun ms => (namesNone_ofExcept .lookup (Metadata.findPackage (.object ms) r.dependency)).bind
      fun _ => (namesNone_note rfl).bind fun _ => namesNone_pure _

theorem namesNone_readSource (site : Site) (path : Path) :
    (readSource site path).NamesNone := by
  refine namesNone_disk.bind fun d => ?_
  cases d.read site.cwd path with
  | error fault => exact namesNone_denied _ fault
  | ok bytes =>
      exact (namesNone_ofExcept _ _).bind fun _ => (namesNone_note rfl).bind fun _ =>
        namesNone_pure _

theorem namesNone_readTable (site : Site) (package : Metadata.Package) (subpath : List Text) :
    (readTable site package subpath).NamesNone := by
  unfold readTable
  cases package.tableFault? subpath with
  | none => exact namesNone_readSource site (package.tablePath subpath)
  | some fault => exact (namesNone_denied _ fault).bind fun _ => namesNone_readSource site _

theorem namesNone_survey (site : Site) (q : Request) : (survey site q).NamesNone :=
  (namesNone_locate site q.directory q.recipe q.tool).bind fun found =>
    (namesNone_readTable site found.1 q.recipe.subpath).bind fun read =>
      (Tables.namesNone_extract q.recipe read.1).bind fun _ =>
        (namesNone_note rfl).bind fun _ => namesNone_pure _

theorem namesNone_check (site : Site) (a : Artifact) : (a.check site).NamesNone :=
  namesNone_disk.bind fun _ => namesNone_ofRefusal _

theorem namesNone_compare (site : Site) (as : List Artifact) : (compare site as).NamesNone := by
  have hjudge : (as.mapM fun a => do return (a, ← a.check site) :
      Action (List (Artifact × Bool))).NamesNone :=
    .mapM (fun a => (namesNone_check site a).bind fun changed => namesNone_pure (a, changed)) as
  refine hjudge.bind fun all => ?_
  by_cases hstale : all.filter (·.2) = []
  · simp only [hstale, ne_eq, not_true_eq_false, if_false]
    exact namesNone_pure _
  · simp only [hstale, ne_eq, not_false_eq_true, if_true]
    exact (namesNone_fail _).bind fun _ => namesNone_pure _

/-! ## On from the survey -/

/-- With both documents at hand and no report to write, a run ends as putting them out does, from
a world with the same disk. -/
theorem exists_result_run_of_prepared {site : Site} {q : Request} {w : World} {s : Survey}
    {typeScript rust : Text} (hreport : q.report = none)
    (hprepared : Prepared site q w.disk s typeScript rust) :
    ∃ w₁, w₁.disk = w.disk ∧ w₁.documentsWritten = w.documentsWritten ∧
      ∀ {r w₂}, (settle site q (artifacts q typeScript rust)).result w₁ = (r, w₂) →
        (run site q).result w = (r.map (reportOf q s), w₂) := by
  cases hsurvey : (survey site q).result w with
  | mk r w₀ =>
      obtain ⟨hr, hdisk₀⟩ := (reads_survey site q).of_result hsurvey
      rw [hprepared.surveyed] at hr
      subst hr
      cases hdocuments : (s.tables.documents q.recipe).result w₀ with
      | mk r w₁ =>
          obtain ⟨hr, hdisk₁⟩ :=
            (Tables.reads_documents q.recipe s.tables).of_result hdocuments
          rw [hprepared.rendered] at hr
          subst hr
          refine ⟨w₁, hdisk₁.trans hdisk₀, ?_, ?_⟩
          · rw [(Tables.namesNone_documents q.recipe s.tables).of_result hdocuments,
              (namesNone_survey site q).of_result hsurvey]
          · intro r w₂ hsettle
            rw [run_eq, result_bind, hsurvey]
            simp only
            rw [result_bind, hdocuments]
            simp only
            rw [result_bind, hsettle]
            cases r with
            | error e => rfl
            | ok records =>
                simp only
                rw [deliver_of_report_eq_none hreport, result_pure]
                rfl

/-- Otherwise it has changed nothing and named nothing. -/
theorem stopped_or_prepared (site : Site) (q : Request) (w : World) :
    (∃ e w', (run site q).result w = (.error e, w') ∧ w'.disk = w.disk ∧
        w'.documentsWritten = w.documentsWritten) ∨
      ∃ s typeScript rust, Prepared site q w.disk s typeScript rust := by
  cases hsurvey : (survey site q).result w with
  | mk r w₀ =>
      obtain ⟨hr, hdisk⟩ := (reads_survey site q).of_result hsurvey
      cases r with
      | error e =>
          left
          refine ⟨e, w₀, ?_, hdisk, (namesNone_survey site q).of_result hsurvey⟩
          rw [run_eq, result_bind, hsurvey]
      | ok s =>
          right
          obtain ⟨text, -, hfound⟩ := surveyed_eq_ok hr.symm
          obtain ⟨typeScript, rust, hrendered⟩ := Tables.exists_rendered_of_found hfound
          exact ⟨s, typeScript, rust, hr.symm, hrendered⟩


end Generation

end EmulationBindings
