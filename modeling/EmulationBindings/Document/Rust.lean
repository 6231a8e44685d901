import EmulationBindings.Document.Basic
import EmulationBindings.Recipe

/-!
# The Rust document

Two constant arrays of string slices, the profiles first.  Names stand in table order and exactly
as the table has them.
-/

namespace EmulationBindings.Document

def arrayOpening (constName : Text) : Text := "pub const " ++ constName ++ ": &[&str] = &["

def arrayItem (name : Text) : Text := "    \"" ++ name ++ "\","

def arrayClosing : Text := "];"

def array (constName : Text) (names : List Text) : Except EmptyTable Text :=
  if names = [] then .error (.array constName)
  else .ok (ofLines (arrayOpening constName :: names.map arrayItem ++ [arrayClosing]))

def rustHead : Text :=
  "// Auto-generated by " ++ generator ++ "\n// DO NOT EDIT MANUALLY\n\n"

def rust (r : Recipe) (profiles systems : List Text) : Except EmptyTable Text := do
  let first ← array r.profileArray profiles
  let second ← array r.systemArray systems
  return rustHead ++ first ++ "\n" ++ second

end EmulationBindings.Document
