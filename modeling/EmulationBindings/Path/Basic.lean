import EmulationBindings.Text.Basic

/-!
# Paths

A path is an anchor and the names after it.  Reading one drops empty names and `.`, and keeps
`..`, which only the disk can follow.  Two leading slashes are an anchor of their own; three or
more are one.
-/

namespace EmulationBindings

inductive Anchor where
  | relative
  | root
  | doubleRoot
  deriving DecidableEq

structure Path where
  anchor : Anchor
  names : List Text
  deriving DecidableEq

def Anchor.text : Anchor → Text
  | .relative => []
  | .root => "/"
  | .doubleRoot => "//"

namespace Path

def dot : Text := "."

def dotDot : Text := ".."

def anchorOf (t : Text) : Anchor :=
  match (t.takeWhile (· = '/')).length with
  | 0 => .relative
  | 2 => .doubleRoot
  | _ => .root

def namesOf (t : Text) : List Text :=
  (t.splitOn '/').filter fun name => name ≠ [] ∧ name ≠ dot

def ofText (t : Text) : Path := ⟨anchorOf t, namesOf t⟩

/-- A path that would be empty is written as a dot. -/
def text (p : Path) : Text :=
  if p.anchor = .relative ∧ p.names = [] then dot
  else p.anchor.text ++ List.intercalate "/" p.names

/-- `q` seen from `p`: an anchored path starts afresh. -/
def join (p q : Path) : Path :=
  if q.anchor = .relative then ⟨p.anchor, p.names ++ q.names⟩ else q

/-- The path without its last name; a path without names is its own parent. -/
def parent (p : Path) : Path := ⟨p.anchor, p.names.dropLast⟩

def joinAll (p : Path) (parts : List Text) : Path := parts.foldl (fun q t => q.join (ofText t)) p

end Path

end EmulationBindings
