import EmulationBindings.Artifact
import EmulationBindings.Metadata.Query
import EmulationBindings.Extraction
import EmulationBindings.Path.Normal
import EmulationBindings.Report.Fields

/-!
# Generation

One run for one crate: locate the table, read it, extract both lists, render both documents, then
write them or, in check mode, compare them with the disk, and report.  The first failure ends the
run, and nothing is retried.
-/

namespace EmulationBindings

structure Request where
  directory : Path
  recipe : Recipe := Recipe.standard
  tool : Text := "cargo"
  /-- Without a wish of its own, a request tracks the source when the recipe does. -/
  trackSource : Option Bool := none
  check : Bool := false
  report : Option Path := none
  deriving DecidableEq

namespace Generation

def readSource (site : Site) (path : Path) : Action (Text × Text) := do
  match (← Action.disk).read site.cwd path with
  | .error fault => Action.denied (.sourceAccess path) fault
  | .ok bytes =>
    let text ← Action.ofExcept (.sourceEncoding path) (Utf8.decode bytes)
    Action.note (.sourceRead bytes.length path)
    return (text, Sha256.hexDigest bytes)

/-- The text of the table, unless the manifest's path keeps it from being looked for. -/
def readTable (site : Site) (package : Metadata.Package) (subpath : List Text) :
    Action (Text × Text) := do
  if let some fault := package.tableFault? subpath then
    Action.denied (.sourceAccess (package.tablePath subpath)) fault
  readSource site (package.tablePath subpath)

def rerunPaths (r : Recipe) (source : Path) (track : Bool) : List Text :=
  r.rerunPaths ++ if track then [source.text] else []

/-- The TypeScript document, then the Rust document, each with its destination. -/
def artifacts (q : Request) (typeScript rust : Text) : List Artifact := [
  { kind := "typescript"
    path := q.directory.destination q.recipe.typeScriptPath
    content := typeScript },
  { kind := "rust"
    path := q.directory.destination q.recipe.rustPath
    content := rust }]

def compare (site : Site) (as : List Artifact) : Action (List Report.ArtifactRecord) := do
  let judged ← as.mapM fun a => return (a, ← a.check site)
  let stale := judged.filter (·.2)
  if stale ≠ [] then Action.fail (.outOfDate (stale.map (·.1.path)))
  return judged.map fun (a, changed) => a.record changed

/-- Writes a report, and before it the directory that it goes to. -/
def writeReport (site : Site) (r : Report) (path : Path) : Action Unit := do
  Action.change (.reportAccess path) fun d =>
    d.ensureDirectory site.cwd site.ascent path.parent
  Action.change (.reportAccess path) fun d =>
    d.write site.cwd site.trouble path (Utf8.encode r.text)

/-- What a run finds before it generates anything. -/
structure Survey where
  package : Metadata.Package
  source : Path
  sha256 : Text
  tables : Tables

def survey (site : Site) (q : Request) : Action Survey := do
  let (package, source) ← Metadata.locate site q.directory q.recipe q.tool
  let (text, sha256) ← readTable site package q.recipe.subpath
  let tables ← Tables.extract q.recipe text
  Action.note (.tablesCounted tables.profiles.length tables.systems.length)
  return { package, source, sha256, tables }

def run (site : Site) (q : Request) : Action Report := do
  let { package, source, sha256, tables } ← survey site q
  let (typeScript, rust) ← tables.documents q.recipe
  let outputs := artifacts q typeScript rust
  let records ← if q.check then compare site outputs else outputs.mapM (Artifact.write site)
  let report : Report := {
    recipe := q.recipe.id
    dependencyName := package.name.shown
    dependencyVersion := package.version
    sourcePath := source.text
    sourceSha256 := sha256
    profiles := tables.profiles
    systems := tables.systems
    profileCount := tables.profiles.length
    systemCount := tables.systems.length
    artifacts := records
    rerunIfChanged := rerunPaths q.recipe source (q.trackSource.getD q.recipe.trackSource)
    checkOnly := q.check }
  if let some path := q.report then
    writeReport site report path
    Action.note (.reportWritten path)
  return report

end Generation

end EmulationBindings
