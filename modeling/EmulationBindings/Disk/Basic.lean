import EmulationBindings.Lookup
import EmulationBindings.Path.Basic
import EmulationBindings.Text.Utf8

/-!
# The disk

A disk says for every location, the list of names from the root down, whether a file or a
directory is there.  The root is always a directory.  `get?` is the view in which everything else
is stated: `set` changes it at the location that it names and nowhere else.
-/

namespace EmulationBindings

abbrev Location := List Text

inductive Node where
  | file (content : Bytes)
  | directory
  deriving DecidableEq

structure Disk where
  entries : List (Location × Node)

namespace Disk

def empty : Disk := ⟨[]⟩

def get? (d : Disk) (l : Location) : Option Node :=
  if l = [] then some .directory else d.entries.lookup l

/-- Puts a node at a location, in the place of what was there. -/
def set (d : Disk) (l : Location) (n : Node) : Disk :=
  ⟨(l, n) :: d.entries.filter fun e => e.1 ≠ l⟩

theorem get?_set (d : Disk) (l m : Location) (n : Node) (hl : l ≠ []) :
    (d.set l n).get? m = if m = l then some n else d.get? m := by
  by_cases hm : m = l
  · subst hm
    simp [get?, set, hl]
  · by_cases h0 : m = []
    · simp [get?, h0, hl.symm]
    · have hb : (m == l) = false := by simp [hm]
      simp only [get?, set, h0, hm, if_false, List.lookup_cons, hb]
      exact lookup_filter_of_kept (fun k => k ≠ l) d.entries (by simp [hm])

end Disk

end EmulationBindings
