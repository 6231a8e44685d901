import EmulationBindings.Extraction
import EmulationBindings.Proofs.Reading

/-!
# What a source yields

Extraction and rendering never look at the disk.  A source in which both scans find a name yields
two tables, and two tables with a name in each always yield both documents, so an empty table is
turned down by the gate and never by a renderer.
-/

namespace EmulationBindings

/-! ## Documents of tables that are not empty -/

namespace Document

theorem typeScript_eq_ok_iff {r : Recipe} {profiles systems : List Text} {t : Text} :
    typeScript r profiles systems = .ok t ↔
      profiles ≠ [] ∧ systems ≠ [] ∧
        t = typeScriptHead ++
          ofLines (unionOpening r.profileUnion :: unionMembers profiles) ++
          typeScriptMiddle ++
          ofLines (unionOpening r.systemUnion :: unionMembers systems) := by
  unfold typeScript union
  by_cases hprofiles : profiles = []
  · simp [hprofiles, bind, Except.bind]
  · by_cases hsystems : systems = []
    · simp [hprofiles, hsystems, bind, Except.bind]
    · simp [hprofiles, hsystems, bind, Except.bind, pure, Except.pure, eq_comm]

theorem typeScript_eq_error_iff {r : Recipe} {profiles systems : List Text} {e : EmptyTable} :
    typeScript r profiles systems = .error e ↔
      (profiles = [] ∨ systems = []) ∧
        e = .union (if profiles = [] then r.profileUnion else r.systemUnion) := by
  unfold typeScript union
  by_cases hprofiles : profiles = []
  · simp [hprofiles, bind, Except.bind, eq_comm]
  · by_cases hsystems : systems = []
    · simp [hprofiles, hsystems, bind, Except.bind, eq_comm]
    · simp [hprofiles, hsystems, bind, Except.bind, pure, Except.pure]

theorem rust_eq_ok_iff {r : Recipe} {profiles systems : List Text} {t : Text} :
    rust r profiles systems = .ok t ↔
      profiles ≠ [] ∧ systems ≠ [] ∧
        t = rustHead ++
          ofLines (arrayOpening r.profileArray :: profiles.map arrayItem ++ [arrayClosing]) ++
          "\n" ++
          ofLines (arrayOpening r.systemArray :: systems.map arrayItem ++ [arrayClosing]) := by
  unfold rust array
  by_cases hprofiles : profiles = []
  · simp [hprofiles, bind, Except.bind]
  · by_cases hsystems : systems = []
    · simp [hprofiles, hsystems, bind, Except.bind]
    · simp [hprofiles, hsystems, bind, Except.bind, pure, Except.pure, eq_comm]

theorem rust_eq_error_iff {r : Recipe} {profiles systems : List Text} {e : EmptyTable} :
    rust r profiles systems = .error e ↔
      (profiles = [] ∨ systems = []) ∧
        e = .array (if profiles = [] then r.profileArray else r.systemArray) := by
  unfold rust array
  by_cases hprofiles : profiles = []
  · simp [hprofiles, bind, Except.bind, eq_comm]
  · by_cases hsystems : systems = []
    · simp [hprofiles, hsystems, bind, Except.bind, eq_comm]
    · simp [hprofiles, hsystems, bind, Except.bind, pure, Except.pure]

end Document

namespace Tables

open EmulationBindings.Action

/-- What the gate notes of the names that it lets through. -/
def warnings (kind dependency : Text) (names : List Text) : List Event :=
  if Table.duplicates names = [] then []
  else [.duplicated kind dependency (Table.duplicates names)]

theorem result_gate (kind dependency : Text) (names : List Text) (w : World) :
    (gate kind dependency names).result w =
      if names = [] then (.error (.failed (.noNames kind dependency)), w)
      else (.ok names, { w with journal := w.journal ++ warnings kind dependency names }) := by
  unfold gate warnings
  by_cases hnames : names = []
  · simp [hnames, result_bind]
  · by_cases hdup : Table.duplicates names = []
    · simp [hnames, hdup]
    · simp only [hnames, hdup, if_false, if_true, ne_eq, not_false_eq_true,
        result_bind, result_note, result_pure]

theorem reads_gate (kind dependency : Text) (names : List Text) :
    (gate kind dependency names).Reads fun _ =>
      if names = [] then .error (.failed (.noNames kind dependency)) else .ok names := by
  intro w
  rw [result_gate]
  by_cases hnames : names = []
  · simp [hnames]
  · simp [hnames]

theorem reads_scanProfiles (r : Recipe) (source : Text) :
    (scanProfiles r source).Reads fun _ => .ok (Table.profileNames r source) :=
  fun _ => ⟨rfl, rfl⟩

theorem reads_scanSystems (r : Recipe) (source : Text) :
    (scanSystems r source).Reads fun _ => .ok (Table.systemNames r source) :=
  fun _ => ⟨rfl, rfl⟩

/-- The tables in a source, or the failure for the first one that is empty. -/
def found (r : Recipe) (source : Text) : Except Stop Tables :=
  if Table.profileNames r source = [] then
    .error (.failed (.noNames "profiles" r.dependency))
  else if Table.systemNames r source = [] then
    .error (.failed (.noNames "operating systems" r.dependency))
  else .ok ⟨Table.profileNames r source, Table.systemNames r source⟩

theorem reads_extract (r : Recipe) (source : Text) :
    (extract r source).Reads fun _ => found r source := by
  have hread := (reads_scanProfiles r source).bind fun profiles =>
    (reads_gate "profiles" r.dependency profiles).bind fun profiles =>
      (reads_scanSystems r source).bind fun systems =>
        (reads_gate "operating systems" r.dependency systems).bind fun systems =>
          reads_pure (Tables.mk profiles systems)
  intro w
  obtain ⟨hend, hdisk⟩ := hread w
  refine ⟨hend.trans ?_, hdisk⟩
  unfold found
  by_cases hprofiles : Table.profileNames r source = []
  · simp [hprofiles, bind, Except.bind]
  · by_cases hsystems : Table.systemNames r source = []
    · simp [hprofiles, hsystems, bind, Except.bind]
    · simp [hprofiles, hsystems, bind, Except.bind]

theorem found_eq_ok_iff {r : Recipe} {source : Text} {t : Tables} :
    found r source = .ok t ↔
      Table.profileNames r source ≠ [] ∧ Table.systemNames r source ≠ [] ∧
        t = ⟨Table.profileNames r source, Table.systemNames r source⟩ := by
  unfold found
  by_cases hprofiles : Table.profileNames r source = []
  · simp [hprofiles]
  · by_cases hsystems : Table.systemNames r source = []
    · simp [hprofiles, hsystems]
    · simp [hprofiles, hsystems, eq_comm]

theorem stage_of_found_eq_error {r : Recipe} {source : Text} {e : Stop}
    (hfound : found r source = .error e) :
    ∃ f, e = .failed f ∧ f.stage = .emptyExtraction := by
  unfold found at hfound
  split at hfound
  · cases hfound
    exact ⟨_, rfl, rfl⟩
  · split at hfound
    · cases hfound
      exact ⟨_, rfl, rfl⟩
    · simp at hfound

def rendered (r : Recipe) (t : Tables) : Except Stop (Text × Text) := do
  let typeScript ← (t.typeScript r).mapError fun table => .refused (.emptyTable table)
  let rust ← (t.rust r).mapError fun table => .refused (.emptyTable table)
  return (typeScript, rust)

theorem reads_documents (r : Recipe) (t : Tables) :
    (t.documents r).Reads fun _ => t.rendered r := by
  have hread := (reads_ofRefusal ((t.typeScript r).mapError Refusal.emptyTable)).bind
    fun typeScript => (reads_ofRefusal ((t.rust r).mapError Refusal.emptyTable)).bind
      fun rust => reads_pure (typeScript, rust)
  intro w
  obtain ⟨hend, hdisk⟩ := hread w
  refine ⟨hend.trans ?_, hdisk⟩
  unfold rendered
  cases t.typeScript r with
  | error table => rfl
  | ok typeScript =>
      cases t.rust r with
      | error table => rfl
      | ok rust => rfl

theorem rendered_eq_ok_iff {r : Recipe} {t : Tables} {typeScript rust : Text} :
    t.rendered r = .ok (typeScript, rust) ↔
      t.typeScript r = .ok typeScript ∧ t.rust r = .ok rust := by
  unfold rendered
  cases t.typeScript r with
  | error table => simp [bind, Except.bind]
  | ok typeScript =>
      cases t.rust r with
      | error table => simp [bind, Except.bind]
      | ok rust => simp [bind, Except.bind, pure, Except.pure]

/-- Rendering never stops a run: the gate has let both tables through. -/
theorem exists_rendered_of_found {r : Recipe} {source : Text} {t : Tables}
    (hfound : found r source = .ok t) :
    ∃ typeScript rust, t.rendered r = .ok (typeScript, rust) := by
  obtain ⟨hprofiles, hsystems, rfl⟩ := found_eq_ok_iff.mp hfound
  have htypeScript := Document.typeScript_eq_ok_iff (r := r).mpr ⟨hprofiles, hsystems, rfl⟩
  have hrust := Document.rust_eq_ok_iff (r := r).mpr ⟨hprofiles, hsystems, rfl⟩
  exact ⟨_, _, rendered_eq_ok_iff.mpr ⟨htypeScript, hrust⟩⟩

def generate (r : Recipe) (source : Text) : Action (Text × Text) := do
  (← extract r source).documents r

theorem generate_eq_ok {r : Recipe} {source typeScript rust : Text} {w w' : World}
    (hrun : (generate r source).result w = (.ok (typeScript, rust), w')) :
    Document.typeScript r (Table.profileNames r source) (Table.systemNames r source) =
        .ok typeScript ∧
      Document.rust r (Table.profileNames r source) (Table.systemNames r source) =
        .ok rust := by
  obtain ⟨t, w₁, hextract, hdocuments⟩ := ok_of_bind hrun
  obtain ⟨-, -, rfl⟩ :=
    found_eq_ok_iff.mp ((reads_extract r source).of_result hextract).1.symm
  have hrendered := ((reads_documents r _).of_result hdocuments).1
  exact rendered_eq_ok_iff.mp hrendered.symm

end Tables

end EmulationBindings
