import EmulationBindings.Document.Basic
import EmulationBindings.Json.Value

/-!
# Reports

What a run scanned and what it generated.  A report can be put together field by field; the
fields that a run always fills in the same way may be left out.
-/

namespace EmulationBindings

structure Report.ArtifactRecord where
  kind : Text
  path : Text
  sha256 : Text
  /-- Did the content differ from what was on the disk? -/
  changed : Bool
  deriving DecidableEq

structure Report where
  packageName : Text := Document.generator
  generatorVersion : Text := "v0"
  schemaVersion : Text := "0.1"
  recipe : Text
  dependencyName : Text
  dependencyVersion : Option Json.Str := none
  sourcePath : Text
  sourceSha256 : Text
  profiles : List Text := []
  systems : List Text := []
  profileCount : Int := 0
  systemCount : Int := 0
  artifacts : List Report.ArtifactRecord := []
  rerunIfChanged : List Text := []
  checkOnly : Bool := false
  deriving DecidableEq

namespace Report

/-- The lines that the build tool reads: the two counts, then every path whose change calls for
another run. -/
def directives (r : Report) : List Text :=
  ("cargo:warning=Found " ++ Text.ofInt r.profileCount ++ " browser profiles") ::
    ("cargo:warning=Found " ++ Text.ofInt r.systemCount ++ " operating systems") ::
    r.rerunIfChanged.map fun path => "cargo:rerun-if-changed=" ++ path

end Report

end EmulationBindings
