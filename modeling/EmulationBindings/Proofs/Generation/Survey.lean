import EmulationBindings.Generation
import EmulationBindings.Proofs.Extraction

/-!
# The survey of a run

All that happens before a document is compared or written only reads.  What a survey ends with
depends on the call and the answer of the build tool and on the bytes of one file, and a survey that
fails does so in one of the five stages before any output is touched.
-/

namespace EmulationBindings.Generation

open EmulationBindings.Action

def sourceOn (site : Site) (path : Path) (d : Disk) : Except Stop (Text × Text) :=
  match d.read site.cwd path with
  | .error fault => .error (stopOf (.sourceAccess path) fault)
  | .ok bytes =>
    match Utf8.decode bytes with
    | .error fault => .error (.failed (.sourceEncoding path fault))
    | .ok text => .ok (text, Sha256.hexDigest bytes)

/-- What asking the build tool ends with. -/
def queried (site : Site) (call : Call) : Except Stop Json.Members :=
  if call.hasNul then .error (.refused .nulInPath) else site.outcome.metadata

/-- What reading the table of a package ends with. -/
def tableOn (site : Site) (package : Metadata.Package) (subpath : List Text) (d : Disk) :
    Except Stop (Text × Text) :=
  match package.tableFault? subpath with
  | some fault => .error (stopOf (.sourceAccess (package.tablePath subpath)) fault)
  | none => sourceOn site (package.tablePath subpath) d

/-- What the survey of a request ends with on a disk. -/
def surveyed (site : Site) (q : Request) (d : Disk) : Except Stop Survey := do
  let ms ← queried site (Metadata.metadataCall q.directory q.tool)
  let package ← (Metadata.findPackage (.object ms) q.recipe.dependency).mapError
    fun fault => .failed (.lookup fault)
  let source := package.tablePath q.recipe.subpath
  let (text, sha256) ← tableOn site package q.recipe.subpath d
  let tables ← Tables.found q.recipe text
  return { package, source, sha256, tables }

theorem reads_query (site : Site) (directory : Path) (tool : Text) :
    (Metadata.query site directory tool).Reads fun _ =>
      queried site (Metadata.metadataCall directory tool) := by
  unfold Metadata.query queried
  generalize Metadata.metadataCall directory tool = call
  cases hnul : call.hasNul with
  | true =>
      simp only [hnul, if_true]
      exact (reads_note _).bind fun _ => (reads_called _).bind fun _ =>
        (reads_refuse .nulInPath).bind fun _ => reads_lift site.outcome.metadata
  | false =>
      simp only [hnul, Bool.false_eq_true, if_false]
      exact (reads_note _).bind fun _ => (reads_called _).bind fun _ =>
        reads_lift site.outcome.metadata

theorem reads_locate (site : Site) (directory : Path) (r : Recipe) (tool : Text) :
    (Metadata.locate site directory r tool).Reads fun _ => do
      let ms ← queried site (Metadata.metadataCall directory tool)
      let package ← (Metadata.findPackage (.object ms) r.dependency).mapError
        fun fault => .failed (.lookup fault)
      return (package, package.tablePath r.subpath) :=
  (reads_query site directory tool).bind fun ms =>
    (reads_ofExcept .lookup (Metadata.findPackage (.object ms) r.dependency)).bind
      fun package => (reads_note _).bind fun _ =>
        reads_pure (package, package.tablePath r.subpath)

theorem reads_readSource (site : Site) (path : Path) :
    (readSource site path).Reads (sourceOn site path) := by
  intro w
  unfold readSource sourceOn
  rw [result_bind, result_disk]
  cases hread : w.disk.read site.cwd path with
  | error fault =>
      simp only [hread]
      rw [result_denied]
      exact ⟨rfl, rfl⟩
  | ok bytes =>
      simp only [hread]
      cases hdecode : Utf8.decode bytes with
      | error fault => exact ⟨rfl, rfl⟩
      | ok text => exact ⟨rfl, rfl⟩

theorem reads_readTable (site : Site) (package : Metadata.Package) (subpath : List Text) :
    (readTable site package subpath).Reads (tableOn site package subpath) := by
  intro w
  unfold readTable tableOn
  cases package.tableFault? subpath with
  | none => exact reads_readSource site (package.tablePath subpath) w
  | some fault =>
      simp only
      rw [result_bind, result_denied]
      exact ⟨rfl, rfl⟩

theorem reads_survey (site : Site) (q : Request) :
    (survey site q).Reads (surveyed site q) := by
  have hread := (reads_locate site q.directory q.recipe q.tool).bind fun found =>
    (reads_readTable site found.1 q.recipe.subpath).bind fun read =>
      (Tables.reads_extract q.recipe read.1).bind fun tables =>
        (reads_note (.tablesCounted tables.profiles.length tables.systems.length)).bind
          fun _ => reads_pure (Survey.mk found.1 found.2 read.2 tables)
  intro w
  obtain ⟨hend, hdisk⟩ := hread w
  refine ⟨hend.trans ?_, hdisk⟩
  unfold surveyed
  cases queried site (Metadata.metadataCall q.directory q.tool) with
  | error e => rfl
  | ok ms =>
      cases hfind : Metadata.findPackage (.object ms) q.recipe.dependency with
      | error fault => simp [hfind, bind, Except.bind]
      | ok package => simp [hfind, bind, Except.bind, pure, Except.pure]

/-! ## What a survey has found -/

/-- The table's file, which the answer of the build tool names, holds this text. -/
def SourceText (site : Site) (q : Request) (d : Disk) (text : Text) : Prop :=
  ∃ ms package bytes,
    site.outcome.metadata = .ok ms ∧
      Metadata.findPackage (.object ms) q.recipe.dependency = .ok package ∧
      d.read site.cwd (package.tablePath q.recipe.subpath) = .ok bytes ∧
      Utf8.decode bytes = .ok text

theorem sourceOn_eq_ok {site : Site} {path : Path} {d : Disk} {text sha256 : Text}
    (hsource : sourceOn site path d = .ok (text, sha256)) :
    ∃ bytes, d.read site.cwd path = .ok bytes ∧ Utf8.decode bytes = .ok text ∧
      sha256 = Sha256.hexDigest bytes := by
  unfold sourceOn at hsource
  split at hsource
  · simp at hsource
  · next bytes hread =>
    split at hsource
    · simp at hsource
    · next decoded hdecode =>
      simp only [Except.ok.injEq, Prod.mk.injEq] at hsource
      obtain ⟨rfl, rfl⟩ := hsource
      exact ⟨bytes, hread, hdecode, rfl⟩

theorem queried_eq_ok_iff {site : Site} {call : Call} {ms : Json.Members} :
    queried site call = .ok ms ↔ call.hasNul = false ∧ site.outcome.metadata = .ok ms := by
  unfold queried
  cases call.hasNul <;> simp

theorem tableOn_eq_ok_iff {site : Site} {package : Metadata.Package} {subpath : List Text}
    {d : Disk} {found : Text × Text} :
    tableOn site package subpath d = .ok found ↔
      package.tableFault? subpath = none ∧
        sourceOn site (package.tablePath subpath) d = .ok found := by
  unfold tableOn
  cases package.tableFault? subpath <;> simp

/-- What each stage of a survey has found: the package in the answer, the table in the package, its
text, and the names in that. -/
theorem stages_of_surveyed {site : Site} {q : Request} {d : Disk} {s : Survey}
    (hsurvey : surveyed site q d = .ok s) :
    ∃ ms bytes text, queried site (Metadata.metadataCall q.directory q.tool) = .ok ms ∧
      Metadata.findPackage (.object ms) q.recipe.dependency = .ok s.package ∧
      s.package.tableFault? q.recipe.subpath = none ∧
      s.source = s.package.tablePath q.recipe.subpath ∧
      d.read site.cwd s.source = .ok bytes ∧ Utf8.decode bytes = .ok text ∧
      s.sha256 = Sha256.hexDigest bytes ∧ Tables.found q.recipe text = .ok s.tables := by
  obtain ⟨ms, hms, hsurvey⟩ := exists_of_bind_eq_ok hsurvey
  obtain ⟨package, hfind, hsurvey⟩ := exists_of_bind_eq_ok hsurvey
  obtain ⟨⟨text, sha256⟩, htable, hsurvey⟩ := exists_of_bind_eq_ok hsurvey
  obtain ⟨tables, hfound, hsurvey⟩ := exists_of_bind_eq_ok hsurvey
  obtain ⟨hsound, hsource⟩ := tableOn_eq_ok_iff.mp htable
  obtain ⟨bytes, hread, hdecode, hsha256⟩ := sourceOn_eq_ok hsource
  obtain rfl := Except.ok.inj hsurvey
  exact ⟨ms, bytes, text, hms, mapError_eq_ok_iff.mp hfind, hsound, rfl, hread, hdecode, hsha256,
    hfound⟩

theorem surveyed_eq_ok {site : Site} {q : Request} {d : Disk} {s : Survey}
    (hsurvey : surveyed site q d = .ok s) :
    ∃ text, SourceText site q d text ∧ Tables.found q.recipe text = .ok s.tables := by
  obtain ⟨ms, bytes, text, hms, hfind, -, hsource, hread, hdecode, -, hfound⟩ :=
    stages_of_surveyed hsurvey
  rw [hsource] at hread
  exact ⟨text, ⟨ms, s.package, bytes, (queried_eq_ok_iff.mp hms).2, hfind, hread, hdecode⟩, hfound⟩

/-- A survey finds the same on every disk where it can read the same table. -/
theorem surveyed_of_read {site : Site} {q : Request} {d d' : Disk} {s : Survey}
    (hsurvey : surveyed site q d = .ok s)
    (hread : ∀ (package : Metadata.Package) bytes,
      d.read site.cwd (package.tablePath q.recipe.subpath) = .ok bytes →
        d'.read site.cwd (package.tablePath q.recipe.subpath) = .ok bytes) :
    surveyed site q d' = .ok s := by
  obtain ⟨ms, bytes, text, hms, hfind, hsound, hsource, hold, hdecode, hsha256, hfound⟩ :=
    stages_of_surveyed hsurvey
  rw [hsource] at hold
  have hfile : tableOn site s.package q.recipe.subpath d' = .ok (text, s.sha256) := by
    simp [tableOn, hsound, sourceOn, hread s.package bytes hold, hdecode, hsha256]
  unfold surveyed
  rw [bind_of_eq_ok hms, bind_of_eq_ok (mapError_eq_ok_iff.mpr hfind), bind_of_eq_ok hfile]
  dsimp only
  rw [bind_of_eq_ok hfound, ← hsource]
  rfl

/-! ## Where a survey can fail -/

/-- The stages that come before any output. -/
def Early (s : Stage) : Prop :=
  s ≠ .writeFailure ∧ s ≠ .staleArtifact

theorem early_of_readMetadata_eq_error {stdout : Bytes} {f : Failure}
    (hread : Metadata.readMetadata stdout = .error (.failed f)) : Early f.stage := by
  unfold Metadata.readMetadata at hread
  split at hread
  · cases hread
    simp [Early, Failure.stage]
  · split at hread
    · cases hread
      simp [Early, Failure.stage]
    · simp at hread
    · simp at hread
    · cases hread
      simp [Early, Failure.stage]

theorem early_of_metadata_eq_error {o : Metadata.Outcome} {f : Failure}
    (hmetadata : o.metadata = .error (.failed f)) : Early f.stage := by
  cases o with
  | unstarted e =>
      cases hmetadata
      simp [Early, Failure.stage]
  | ended code stdout stderr =>
      unfold Metadata.Outcome.metadata at hmetadata
      simp only at hmetadata
      split at hmetadata
      · cases hmetadata
        simp [Early, Failure.stage]
      · exact early_of_readMetadata_eq_error hmetadata

theorem early_of_sourceOn_eq_error {site : Site} {path : Path} {d : Disk} {f : Failure}
    (hsource : sourceOn site path d = .error (.failed f)) : Early f.stage := by
  unfold sourceOn at hsource
  split at hsource
  · next fault hread =>
    obtain ⟨error, rfl⟩ := exists_of_stopOf_eq_failed (Except.error.inj hsource)
    simp [Early, Failure.stage]
  · split at hsource
    · cases hsource
      simp [Early, Failure.stage]
    · simp at hsource

theorem early_of_queried_eq_error {site : Site} {call : Call} {f : Failure}
    (hquery : queried site call = .error (.failed f)) : Early f.stage := by
  unfold queried at hquery
  split at hquery
  · simp at hquery
  · exact early_of_metadata_eq_error hquery

theorem early_of_tableOn_eq_error {site : Site} {package : Metadata.Package}
    {subpath : List Text} {d : Disk} {f : Failure}
    (htable : tableOn site package subpath d = .error (.failed f)) : Early f.stage := by
  unfold tableOn at htable
  split at htable
  · obtain ⟨error, rfl⟩ := exists_of_stopOf_eq_failed (Except.error.inj htable)
    simp [Early, Failure.stage]
  · exact early_of_sourceOn_eq_error htable

theorem early_of_surveyed_eq_error {site : Site} {q : Request} {d : Disk} {f : Failure}
    (hsurvey : surveyed site q d = .error (.failed f)) : Early f.stage := by
  rcases or_of_bind_eq_error hsurvey with hms | ⟨ms, -, hsurvey⟩
  · exact early_of_queried_eq_error hms
  rcases or_of_bind_eq_error hsurvey with hfind | ⟨package, -, hsurvey⟩
  · obtain ⟨fault, -, hf⟩ := mapError_eq_error_iff.mp hfind
    obtain rfl := Stop.failed.inj hf
    cases fault <;> simp [Early, Failure.stage]
  rcases or_of_bind_eq_error hsurvey with htable | ⟨read, -, hsurvey⟩
  · exact early_of_tableOn_eq_error htable
  rcases or_of_bind_eq_error hsurvey with hfound | ⟨tables, -, hsurvey⟩
  · obtain ⟨f', hf', hstage⟩ := Tables.stage_of_found_eq_error hfound
    obtain rfl := Stop.failed.inj hf'
    simp [hstage, Early]
  · simp [pure, Except.pure] at hsurvey

end EmulationBindings.Generation
