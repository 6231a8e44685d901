import EmulationBindings.Disk.Access
import EmulationBindings.Settings.EnvFile
import EmulationBindings.Text.Lines

/-!
# Settings

The two variables that the build tool sets for its build scripts.  The environment wins over the
environment file of the working directory, also with an empty value.
-/

namespace EmulationBindings

structure Settings where
  directory : Option Text := none
  tool : Text := "cargo"
  deriving DecidableEq

structure Settings.Loaded where
  settings : Settings
  unreadableLines : List Nat
  deriving DecidableEq

namespace Settings

def directoryName : Text := "CARGO_MANIFEST_DIR"

def toolName : Text := "CARGO"

/-- The text of the environment file, empty when there is none.  A byte order mark in front is not
part of it. -/
def fileText (d : Disk) (cwd : Location) : Except Utf8.Fault Text :=
  match d.read cwd (Path.ofText ".env") with
  | .error _ => .ok []
  | .ok bytes =>
    (Utf8.decode bytes).map fun t =>
      Text.unifyNewlines (if t.head? = some '\uFEFF' then t.tail else t)

def value? (env : EnvFile.Environment) (file : EnvFile.Assignments) (name : Text) : Option Text :=
  match env.lookup name with
  | some v => some v
  | none => (file.lookup name).join

def load (env : EnvFile.Environment) (d : Disk) (cwd : Location) : Except Utf8.Fault Loaded := do
  let t ← fileText d cwd
  let file := EnvFile.assignments env t
  return {
    settings := {
      directory := value? env file directoryName
      tool := (value? env file toolName).getD "cargo" }
    unreadableLines := EnvFile.unreadableLines t }

end Settings

end EmulationBindings
