import EmulationBindings.Text.Basic

/-!
# Table entries

An entry of the table carries its name between double quotes, the first of them at the end of the
marker that announces it.
-/

namespace EmulationBindings.Table

/-- The text from the first marker on the line up to the next double quote. -/
def quotedAfter? (marker line : Text) : Option Text := do
  let (_, rest) ← Text.cut? marker line
  let (name, _) ← Text.cut? "\"" rest
  return name

end EmulationBindings.Table
