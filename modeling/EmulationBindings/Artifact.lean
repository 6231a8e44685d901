import EmulationBindings.Report.Basic
import EmulationBindings.Sha256
import EmulationBindings.Action
import EmulationBindings.Text.Lines

/-!
# Artifacts

A rendered document and the file that it goes to.  Whether the file is up to date is judged on its
text, with every line ending read as a line feed; what is written is the document as it stands.
-/

namespace EmulationBindings

structure Artifact where
  kind : Text
  path : Path
  content : Text
  deriving DecidableEq

namespace Artifact

/-- The text of a file as staleness sees it, or nothing for bytes that are no text. -/
def comparable? (bytes : Bytes) : Option Text :=
  match Utf8.decode bytes with
  | .ok t => some (Text.unifyNewlines t)
  | .error _ => none

/-- Does the file differ from the document, or is there no file to read? -/
def isStale (d : Disk) (cwd : Location) (a : Artifact) : Except Refusal Bool :=
  match d.read cwd a.path with
  | .error fault => fault.cause.map fun _ => true
  | .ok bytes => .ok (comparable? bytes != some a.content)

def record (a : Artifact) (changed : Bool) : Report.ArtifactRecord where
  kind := a.kind
  path := a.path.text
  sha256 := Sha256.hexDigest (Utf8.encode a.content)
  changed := changed

def check (site : Site) (a : Artifact) : Action Bool := do
  Action.ofRefusal (isStale (← Action.disk) site.cwd a)

/-- Writes the document over what was there. -/
def write (site : Site) (a : Artifact) : Action Report.ArtifactRecord := do
  let changed ← check site a
  Action.change (.artifactAccess a.kind a.path) fun d =>
    d.write site.cwd site.trouble a.path (Utf8.encode a.content)
  Action.note (.artifactWritten a.path changed)
  return a.record changed

end Artifact

end EmulationBindings
