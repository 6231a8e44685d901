import EmulationBindings.Text.Basic

/-!
# Documents

What the two generated documents share.
-/

namespace EmulationBindings.Document

def generator : Text := "emulation_codegen"

/-- A union or an array without members cannot be written. -/
inductive EmptyTable where
  | union (name : Text)
  | array (name : Text)
  deriving DecidableEq

def EmptyTable.text : EmptyTable → Text
  | .union name => "Cannot render an empty union for " ++ name
  | .array name => "Cannot render an empty array for " ++ name

/-- The lines joined, with a line feed after the last one too. -/
def ofLines (ls : List Text) : Text := List.intercalate ['\n'] ls ++ ['\n']

end EmulationBindings.Document
