import EmulationBindings.Document.Basic
import EmulationBindings.Recipe

/-!
# The TypeScript document

Two union types of string literals, the profiles first.  Names stand in table order and exactly
as the table has them.
-/

namespace EmulationBindings.Document

/-- The members of a union, the last one with the semicolon that ends the type. -/
def unionMembers : List Text → List Text
  | [] => []
  | [last] => ["  | '" ++ last ++ "';"]
  | name :: next :: rest => ("  | '" ++ name ++ "'") :: unionMembers (next :: rest)

def unionOpening (typeName : Text) : Text := "export type " ++ typeName ++ " ="

def union (typeName : Text) (names : List Text) : Except EmptyTable Text :=
  if names = [] then .error (.union typeName)
  else .ok (ofLines (unionOpening typeName :: unionMembers names))

def typeScriptHead : Text :=
  "/**\n * Auto-generated by " ++ generator ++ "\n * DO NOT EDIT MANUALLY\n */\n\n" ++
    "/**\n * Browser profile names supported\n */\n"

def typeScriptMiddle : Text := "\n/**\n * Operating systems supported for emulation\n */\n"

def typeScript (r : Recipe) (profiles systems : List Text) : Except EmptyTable Text := do
  let first ← union r.profileUnion profiles
  let second ← union r.systemUnion systems
  return typeScriptHead ++ first ++ typeScriptMiddle ++ second

end EmulationBindings.Document
