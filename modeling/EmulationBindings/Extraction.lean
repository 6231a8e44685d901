import EmulationBindings.Document.Rust
import EmulationBindings.Document.TypeScript
import EmulationBindings.Table.Duplicates
import EmulationBindings.Table.Scanner
import EmulationBindings.Action

/-!
# Extraction

Both scans of a source with the gate behind each: an empty table means that the source no longer
looks as the recipe assumes, and stops the run; duplicate names are only worth a warning.
-/

namespace EmulationBindings

structure Tables where
  profiles : List Text
  systems : List Text
  deriving DecidableEq

namespace Tables

/-- Lets a list of names through unchanged, unless it is empty. -/
def gate (kind dependency : Text) (names : List Text) : Action (List Text) := do
  if names = [] then Action.fail (.noNames kind dependency)
  if Table.duplicates names ≠ [] then
    Action.note (.duplicated kind dependency (Table.duplicates names))
  return names

def scanProfiles (r : Recipe) (source : Text) : Action (List Text) := do
  let names := Table.profileNames r source
  Action.note (.profilesMatched names.length)
  return names

def scanSystems (r : Recipe) (source : Text) : Action (List Text) := do
  let scanner := Table.scanSystems r source
  Action.note (.systemsScanned scanner)
  return scanner.names

/-- Scans and gates the profiles first, then the operating systems. -/
def extract (r : Recipe) (source : Text) : Action Tables := do
  let profiles ← gate "profiles" r.dependency (← scanProfiles r source)
  let systems ← gate "operating systems" r.dependency (← scanSystems r source)
  return { profiles, systems }

def typeScript (r : Recipe) (t : Tables) : Except Document.EmptyTable Text :=
  Document.typeScript r t.profiles t.systems

def rust (r : Recipe) (t : Tables) : Except Document.EmptyTable Text :=
  Document.rust r t.profiles t.systems

def documents (r : Recipe) (t : Tables) : Action (Text × Text) := do
  let typeScript ← Action.ofRefusal ((t.typeScript r).mapError .emptyTable)
  let rust ← Action.ofRefusal ((t.rust r).mapError .emptyTable)
  return (typeScript, rust)

end Tables

end EmulationBindings
