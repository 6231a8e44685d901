import EmulationBindings.Text.Basic

/-!
# Duplicate names

The names that a list holds more than once, each given once, in the order of their code points.
-/

namespace EmulationBindings.Table

/-- Puts a name in its place in an ascending list, unless it is there already. -/
def insertName (name : Text) : List Text → List Text
  | [] => [name]
  | n :: rest =>
    if name = n then n :: rest
    else if name < n then name :: n :: rest
    else n :: insertName name rest

def duplicates (names : List Text) : List Text :=
  (names.filter fun n => 1 < names.count n).foldr insertName []

end EmulationBindings.Table
