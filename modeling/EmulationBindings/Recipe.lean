import EmulationBindings.Text.Basic

/-!
# Recipes

A recipe holds all that a run assumes about the dependency and its crate: where the table is,
what marks its entries, and what the generated documents are called.  A change of the table's
layout is a change of recipe.
-/

namespace EmulationBindings

structure Recipe where
  id : Text
  /-- The package that holds the table, and the file inside it. -/
  dependency : Text
  subpath : List Text
  /-- What stands before the quoted name of a browser profile. -/
  profileMarker : Text
  /-- The table of operating systems opens at the first line with `systemType` after one with
  `plainMarker`, and ends at a line with `blockEnd`. -/
  plainMarker : Text
  systemType : Text
  systemMarker : Text
  blockEnd : Text
  /-- The two union types of the TypeScript document. -/
  profileUnion : Text
  systemUnion : Text
  /-- The two constants of the Rust document. -/
  profileArray : Text
  systemArray : Text
  /-- Destinations, seen from the crate's directory. -/
  typeScriptPath : Text
  rustPath : Text
  rerunPaths : List Text
  trackSource : Bool
  deriving DecidableEq

def Recipe.standard : Recipe where
  id := "wreq-util-emulation-rs"
  dependency := "wreq-util"
  subpath := ["src", "emulation", "mod.rs"]
  profileMarker := "=> (\""
  plainMarker := "plain,"
  systemType := "EmulationOS"
  systemMarker := "=> \""
  blockEnd := ");"
  profileUnion := "BrowserProfile"
  systemUnion := "EmulationOS"
  profileArray := "BROWSER_PROFILES"
  systemArray := "OPERATING_SYSTEMS"
  typeScriptPath := "../src/generated-types.ts"
  rustPath := "src/generated_profiles.rs"
  rerunPaths := ["build.rs"]
  trackSource := false

end EmulationBindings
