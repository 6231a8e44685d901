import EmulationBindings.Path.Basic

/-!
# Normal paths

Takes `..` out of a path by its text alone: it cancels the name before it.  What is left of it
stands at the front of a relative path; above a root it is dropped.
-/

namespace EmulationBindings.Path

/-- One name more, with the names before it in reverse. -/
def push (anchor : Anchor) (before : List Text) (name : Text) : List Text :=
  if name ≠ dotDot then name :: before
  else
    match before with
    | [] => if anchor = .relative then [dotDot] else []
    | last :: rest => if last = dotDot then dotDot :: before else rest

def normalize (p : Path) : Path := ⟨p.anchor, (p.names.foldl (push p.anchor) []).reverse⟩

def destination (directory : Path) (relative : Text) : Path :=
  (directory.join (ofText relative)).normalize

end EmulationBindings.Path
