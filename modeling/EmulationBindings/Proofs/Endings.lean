import EmulationBindings.CommandLine
import EmulationBindings.Proofs.Generation.Refusals

/-!
# How a call ends

A call ends with an exit status, except for an environment file that is not UTF-8, an option that
is given the separator for its value, and the faults of a run that belong to no stage.
-/

namespace EmulationBindings

open EmulationBindings.Action EmulationBindings.Generation

/-- The directory and the report's path that the arguments name have no NUL character in them. -/
structure Options.Choice.NulFree (c : Options.Choice) : Prop where
  directory : ∀ path, c.directory = some (.value path) → path.hasNul = false
  report : ∀ path, c.report = some path → path.hasNul = false

namespace CommandLine

variable {site : Site} {c : Options.Choice} {d : Disk} {r : Refusal}

end CommandLine

end EmulationBindings
