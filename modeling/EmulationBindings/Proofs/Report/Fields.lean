import EmulationBindings.Proofs.Json.RoundTrip
import EmulationBindings.Report.Fields

/-!
# The fields of a report

The members of a report hold all of its fields, so a report can be put together from them again.
In every object of a report the names ascend.
-/

namespace EmulationBindings

/-- The names of an object ascend. -/
def Json.Ascending : Json → Prop
  | .object members => (members.map Prod.fst).Pairwise (· < ·)
  | _ => True

namespace Shape

variable {α : Type} {read : Json → Checked α}

theorem under_ok (name : Text) (a : α) : under name (.ok a : Checked α) = .ok a := rfl

theorem finish_ok (record : Text) (a : α) : finish record (.ok a : Checked α) = .ok a := rfl

theorem listOf_map {toJson : α → Json} (hread : ∀ a, read (toJson a) = .ok a) (as : List α) :
    listOf read (.array (as.map toJson)) = .ok as := by
  have heach (i : Nat) : each read i (as.map toJson) = .ok as := by
    induction as generalizing i with
    | nil => rfl
    | cons a rest ih =>
        rw [List.map_cons, each, hread, ih (i + 1)]
        rfl
  exact heach 0

end Shape

namespace Report

open Shape

/-! ## Putting a report together from its members -/

theorem ArtifactRecord.ofJson_toJson (a : ArtifactRecord) : ofJson a.toJson = .ok a := rfl

theorem listOf_texts (ts : List Text) : listOf Shape.text (texts ts) = .ok ts :=
  listOf_map (fun t => (rfl : Shape.text (.string t) = .ok t)) ts

theorem optionalString_optional : ∀ s : Option Json.Str, optionalString (optional s) = .ok s
  | none | some (.text _) | some (.unpaired _) => rfl

theorem ofMembers_members (r : Report) : ofMembers r.members = .ok r := by
  have hartifacts : listOf ArtifactRecord.ofJson
      (.array (r.artifacts.map ArtifactRecord.toJson)) = .ok r.artifacts :=
    listOf_map ArtifactRecord.ofJson_toJson r.artifacts
  simp [ofMembers, members, required, withDefault, Json.Members.get?, List.lookup_cons,
    under_ok, finish_ok, Shape.text, boolean, integer, listOf_texts, optionalString_optional,
    hartifacts, Checked.apply, Except.map]

/-! ## Everything in a report -/

def ArtifactRecord.fieldNames : List Text := ["changed", "kind", "path", "sha256"]

theorem ArtifactRecord.pairwise_fieldNames : fieldNames.Pairwise (· < ·) := by decide

def fieldNames : List Text :=
  ["artifacts", "check_only", "dependency_name", "dependency_version", "generator_version",
    "operating_system_count", "operating_systems", "package_name", "profile_count", "profile_id",
    "profiles", "rerun_if_changed", "schema_version", "source_path", "source_sha256"]

theorem map_fst_members (r : Report) : r.members.map Prod.fst = fieldNames := rfl

theorem pairwise_fieldNames : fieldNames.Pairwise (· < ·) := by decide

variable {p : Json → Prop}

theorem every_of_children_eq_nil {v : Json} (hself : p v) (hv : v.children = []) :
    Json.Every p v := by
  refine .intro hself fun w hw => ?_
  simp [hv] at hw

theorem every_texts (harray : ∀ vs, p (.array vs)) (hstring : ∀ t, p (.string t))
    (ts : List Text) : Json.Every p (texts ts) := by
  refine .intro (harray _) fun w hw => ?_
  obtain ⟨t, -, rfl⟩ := List.mem_map.mp hw
  exact every_of_children_eq_nil (hstring t) rfl

/-- What is true of each value that a report is made of is true of every value in it. -/
theorem every_members (r : Report) (hself : p (.object r.members))
    (hrecord : ∀ a : ArtifactRecord, p a.toJson) (harray : ∀ vs, p (.array vs))
    (hstring : ∀ t, p (.string t)) (hbool : ∀ b, p (.bool b)) (hnull : p .null)
    (hversion : ∀ points, r.dependencyVersion = some (.unpaired points) → p (.unpaired points))
    (hprofiles : p (.int r.profileCount)) (hsystems : p (.int r.systemCount)) :
    Json.Every p (.object r.members) := by
  have htext (t : Text) : Json.Every p (.string t) := every_of_children_eq_nil (hstring t) rfl
  have hswitch (b : Bool) : Json.Every p (.bool b) := every_of_children_eq_nil (hbool b) rfl
  have hlist (ts : List Text) : Json.Every p (texts ts) := every_texts harray hstring ts
  have hartifact (a : ArtifactRecord) : Json.Every p a.toJson := by
    refine .intro (hrecord a) ?_
    simp [ArtifactRecord.toJson, Json.children, htext, hswitch]
  have hartifacts : Json.Every p (.array (r.artifacts.map ArtifactRecord.toJson)) := by
    refine .intro (harray _) ?_
    simp [Json.children, hartifact]
  have hoptional : Json.Every p (optional r.dependencyVersion) := by
    cases hr : r.dependencyVersion with
    | none => exact every_of_children_eq_nil hnull rfl
    | some s =>
        cases s with
        | text t => exact htext t
        | unpaired points => exact every_of_children_eq_nil (hversion points hr) rfl
  have hcounts : Json.Every p (.int r.profileCount) ∧ Json.Every p (.int r.systemCount) :=
    ⟨every_of_children_eq_nil hprofiles rfl, every_of_children_eq_nil hsystems rfl⟩
  refine .intro hself ?_
  simp [members, Json.children, hartifacts, hswitch, htext, hoptional, hlist, hcounts]

theorem ascending_members (r : Report) : Json.Every Json.Ascending (.object r.members) := by
  apply every_members r
  · exact pairwise_fieldNames
  · exact fun _ => ArtifactRecord.pairwise_fieldNames
  all_goals simp [Json.Ascending]

/-- Both counts are short enough to be read, and the version, if there is one, is a text. -/
structure Legible (r : Report) : Prop where
  profiles : (Text.ofNat r.profileCount.natAbs).length ≤ Json.maxDigits
  systems : (Text.ofNat r.systemCount.natAbs).length ≤ Json.maxDigits
  version : ∀ points, r.dependencyVersion ≠ some (.unpaired points)

theorem legible_members {r : Report} (hr : r.Legible) :
    Json.Every Json.Legible (.object r.members) := by
  have hne {name other : Text} (hlt : name < other) : name ≠ other := by
    rintro rfl
    exact List.lt_irrefl name hlt
  apply every_members r
  · exact pairwise_fieldNames.imp hne
  · exact fun _ => ArtifactRecord.pairwise_fieldNames.imp hne
  all_goals simp [Json.Legible, hr.profiles, hr.systems, hr.version]

/-! ## The text of a report -/

theorem isAscii_text {r : Report} (hr : r.Legible) : r.text.IsAscii :=
  Text.isAscii_append.mpr ⟨Json.isAscii_renderAt (legible_members hr) 0, by simp⟩

theorem decode_text {r : Report} (hr : r.Legible) :
    Json.decode r.text = .ok (.object r.members) :=
  Json.decode_render (legible_members hr)

theorem members_inj {r r' : Report} : r.members = r'.members ↔ r = r' := by
  constructor
  · intro hmembers
    have hread := ofMembers_members r
    rw [hmembers, ofMembers_members] at hread
    exact (Except.ok.inj hread).symm
  · exact congrArg members

end Report

end EmulationBindings
