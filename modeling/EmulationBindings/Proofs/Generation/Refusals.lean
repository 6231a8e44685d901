import EmulationBindings.Proofs.Generation.Run
import EmulationBindings.Proofs.Json.LongIntegers
import EmulationBindings.Proofs.Tagged

/-!
# Runs that no stage covers

Almost every fault of a run belongs to a stage.  Four do not: a command with a NUL character in it,
an integer in the answer of the build tool that is too long to be read, a manifest in a directory
that cannot be named, be it for a NUL character or for a surrogate, and a report below more missing
directories than can be made together.  Where the crate's directory and the report's path have no
NUL character in them, every other run ends with a report or at a stage.
-/

namespace EmulationBindings

namespace Metadata.Package

end Metadata.Package

namespace Generation

open EmulationBindings.Action

/-! ## Faults of a survey -/

/-- The directory of the manifest has these surrogates in its path, from this position on, and the
first of them stands for nothing that a path can have. -/
def Unencodable (package : Metadata.Package) (position : ℕ) (surrogates : List ℕ) : Prop :=
  ∃ points, package.manifestPath = .unpaired points ∧
    Metadata.Package.unencodable? (package.directoryPoints points) = some (position, surrogates)

theorem Unencodable.unique {package : Metadata.Package} {position position' : ℕ}
    {surrogates surrogates' : List ℕ} (hfirst : Unencodable package position surrogates)
    (hsecond : Unencodable package position' surrogates') :
    position = position' ∧ surrogates = surrogates' := by
  obtain ⟨points, hpoints, hfound⟩ := hfirst
  obtain ⟨points', hpoints', hfound'⟩ := hsecond
  obtain rfl := Json.Str.unpaired.inj (hpoints.symm.trans hpoints')
  exact Prod.mk.inj (Option.some.inj (hfound.symm.trans hfound'))

/-- The crate's directory and the report's path have no NUL character in them. -/
structure NulFree (q : Request) : Prop where
  directory : q.directory.hasNul = false
  report : ∀ path, q.report = some path → path.hasNul = false

variable {site : Site} {q : Request}

theorem NulFree.artifacts (hfree : NulFree q) (hrecipe : q.recipe = .standard)
    (typeScript rust : Text) :
    ∀ a ∈ artifacts q typeScript rust, a.path.hasNul = false := by
  have htypeScript : (q.directory.destination q.recipe.typeScriptPath).hasNul = false := by
    rw [hrecipe]
    exact Path.hasNul_destination hfree.directory (by decide +kernel)
  have hrust : (q.directory.destination q.recipe.rustPath).hasNul = false := by
    rw [hrecipe]
    exact Path.hasNul_destination hfree.directory (by decide +kernel)
  simp [Generation.artifacts, htypeScript, hrust]

end EmulationBindings.Generation
