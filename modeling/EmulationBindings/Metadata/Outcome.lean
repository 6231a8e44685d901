import EmulationBindings.Disk.Access
import EmulationBindings.Text.Utf8

/-!
# Outcomes of the build tool

What came of starting the build tool: it ended, with an exit code and what it printed, or it could
not be started.
-/

namespace EmulationBindings.Metadata

inductive Outcome where
  | ended (code : Int) (stdout stderr : Bytes)
  | unstarted (error : SystemError)

def metadataCommand (tool : Text) : List Text := [tool, "metadata", "--format-version", "1"]

end EmulationBindings.Metadata
