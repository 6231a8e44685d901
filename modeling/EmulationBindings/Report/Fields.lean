import EmulationBindings.Json.Printer
import EmulationBindings.Report.Basic
import EmulationBindings.Shape.Lenient

/-!
# Reports as JSON

The members of a report stand in ascending order of their names.  Reading one back looks at the
fields in the order in which a report declares them.
-/

namespace EmulationBindings.Report

def ArtifactRecord.toJson (a : ArtifactRecord) : Json :=
  .object [
    ("changed", .bool a.changed),
    ("kind", .string a.kind),
    ("path", .string a.path),
    ("sha256", .string a.sha256)]

def texts (ts : List Text) : Json := .array (ts.map .string)

def optional : Option Json.Str → Json
  | some s => s.value
  | none => .null

def members (r : Report) : Json.Members := [
  ("artifacts", .array (r.artifacts.map ArtifactRecord.toJson)),
  ("check_only", .bool r.checkOnly),
  ("dependency_name", .string r.dependencyName),
  ("dependency_version", optional r.dependencyVersion),
  ("generator_version", .string r.generatorVersion),
  ("operating_system_count", .int r.systemCount),
  ("operating_systems", texts r.systems),
  ("package_name", .string r.packageName),
  ("profile_count", .int r.profileCount),
  ("profile_id", .string r.recipe),
  ("profiles", texts r.profiles),
  ("rerun_if_changed", texts r.rerunIfChanged),
  ("schema_version", .string r.schemaVersion),
  ("source_path", .string r.sourcePath),
  ("source_sha256", .string r.sourceSha256)]

def text (r : Report) : Text := Json.render (.object r.members) ++ ['\n']

open Shape

def ArtifactRecord.ofJson (v : Json) : Checked ArtifactRecord := do
  let ms ← Shape.members "ArtifactRecord" v
  let kind := (required ms "kind" Shape.text).map ArtifactRecord.mk
  let path := Checked.apply kind (required ms "path" Shape.text)
  let sha256 := Checked.apply path (required ms "sha256" Shape.text)
  Checked.apply sha256 (required ms "changed" boolean)

/-- The report with these fields.  Other members are not looked at. -/
def ofMembers (ms : Json.Members) : Except Shape.Fault Report :=
  let text (name value : Text) := withDefault ms name value Shape.text
  let list (name : Text) := withDefault ms name [] (listOf Shape.text)
  let count (name : Text) := withDefault ms name 0 integer
  let r := (text "package_name" Document.generator).map Report.mk
  let r := Checked.apply r (text "generator_version" "v0")
  let r := Checked.apply r (text "schema_version" "0.1")
  let r := Checked.apply r (required ms "profile_id" Shape.text)
  let r := Checked.apply r (required ms "dependency_name" Shape.text)
  let r := Checked.apply r (withDefault ms "dependency_version" none optionalString)
  let r := Checked.apply r (required ms "source_path" Shape.text)
  let r := Checked.apply r (required ms "source_sha256" Shape.text)
  let r := Checked.apply r (list "profiles")
  let r := Checked.apply r (list "operating_systems")
  let r := Checked.apply r (count "profile_count")
  let r := Checked.apply r (count "operating_system_count")
  let r := Checked.apply r (withDefault ms "artifacts" [] (listOf ArtifactRecord.ofJson))
  let r := Checked.apply r (list "rerun_if_changed")
  let r := Checked.apply r (withDefault ms "check_only" false boolean)
  finish "GenerationReport" r

end EmulationBindings.Report
