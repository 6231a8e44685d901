import EmulationBindings.Proofs.Options.Uses
import EmulationBindings.Proofs.Reading

/-!
# Arguments that are accepted

Accepted arguments have a reading, and the options are taken as it says: of the values that an
option is given the last one counts, and a switch is on when it is used at all.
-/

namespace EmulationBindings.Options

/-! ## Arguments that are options -/

section

variable {t : Text} {flag : Flag} {long : Bool} {attached : Option Text}

end

/-! ## Arguments that are taken -/

def Given.path : Given Text → Given Path
  | .value t => .value (Path.ofText t)
  | .nothing => .nothing

section

variable {flag : Flag} (c : Choice) (uses : List Use)

end

end EmulationBindings.Options
