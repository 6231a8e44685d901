import EmulationBindings.Generation
import EmulationBindings.Proofs.Disk.Target
import EmulationBindings.Proofs.Path.Normal
import EmulationBindings.Proofs.Path.Spelling

/-!
# Where the documents go

Both destinations are normal paths below the crate's directory.  A normal path keeps its last
name when that is not `..`, and the standard recipe gives its documents different names, so its
two destinations are never the same file, whatever the directory is called.
-/

namespace EmulationBindings

namespace Path

theorem exists_destination_eq (directory : Path) {relative : Text} {before : List Text}
    {name : Text} (hrelative : ofText relative = ⟨.relative, before ++ [name]⟩)
    (hname : name ≠ dotDot) :
    ∃ names, directory.destination relative = ⟨directory.anchor, names ++ [name]⟩ := by
  have hjoin : directory.join (ofText relative) =
      ⟨directory.anchor, (directory.names ++ before) ++ [name]⟩ := by
    simp [join, hrelative]
  refine ⟨(normalize ⟨directory.anchor, directory.names ++ before⟩).names, ?_⟩
  rw [destination, hjoin]
  exact normalize_append_of_ne directory.anchor _ hname

theorem target_ne_target_of_ne {cwd : Location} {anchor anchor' : Anchor}
    {before before' : List Text} {name name' : Text}
    (hname : name ≠ dotDot) (hname' : name' ≠ dotDot) (hne : name ≠ name') :
    target cwd ⟨anchor, before ++ [name]⟩ ≠ target cwd ⟨anchor', before' ++ [name']⟩ := by
  rw [target_append_of_ne cwd anchor before hname,
    target_append_of_ne cwd anchor' before' hname']
  intro heq
  exact hne (List.singleton_inj.mp (List.append_inj' heq rfl).2)

end Path

namespace Generation

def typeScriptDestination (q : Request) : Path :=
  q.directory.destination q.recipe.typeScriptPath

def rustDestination (q : Request) : Path :=
  q.directory.destination q.recipe.rustPath

/-- The two destinations denote different files. -/
def DistinctOutputs (cwd : Location) (q : Request) : Prop :=
  (typeScriptDestination q).target cwd ≠ (rustDestination q).target cwd

theorem exists_typeScriptDestination_eq {q : Request} (hrecipe : q.recipe = .standard) :
    ∃ names, typeScriptDestination q =
      ⟨q.directory.anchor, names ++ [("generated-types.ts" : Text)]⟩ := by
  have hrelative : Path.ofText Recipe.standard.typeScriptPath =
      ⟨.relative, [Path.dotDot, ("src" : Text)] ++ [("generated-types.ts" : Text)]⟩ := by
    decide +kernel
  rw [typeScriptDestination, hrecipe]
  exact Path.exists_destination_eq q.directory hrelative (by decide +kernel)

theorem exists_rustDestination_eq {q : Request} (hrecipe : q.recipe = .standard) :
    ∃ names, rustDestination q =
      ⟨q.directory.anchor, names ++ [("generated_profiles.rs" : Text)]⟩ := by
  have hrelative : Path.ofText Recipe.standard.rustPath =
      ⟨.relative, [("src" : Text)] ++ [("generated_profiles.rs" : Text)]⟩ := by
    decide +kernel
  rw [rustDestination, hrecipe]
  exact Path.exists_destination_eq q.directory hrelative (by decide +kernel)

theorem distinctOutputs_standard (cwd : Location) {q : Request}
    (hrecipe : q.recipe = .standard) :
    DistinctOutputs cwd q := by
  obtain ⟨names, hnames⟩ := exists_typeScriptDestination_eq hrecipe
  obtain ⟨names', hnames'⟩ := exists_rustDestination_eq hrecipe
  rw [DistinctOutputs, hnames, hnames']
  exact Path.target_ne_target_of_ne (by decide +kernel) (by decide +kernel) (by decide +kernel)

/-! ## Where the table is -/

theorem tablePath_standard (package : Metadata.Package) :
    package.tablePath Recipe.standard.subpath =
      ⟨package.directory.anchor, package.directory.names ++
        [("src" : Text), ("emulation" : Text), ("mod.rs" : Text)]⟩ := by
  have hrelative : ∀ part ∈ Recipe.standard.subpath, part.head? ≠ some '/' := by
    decide +kernel
  have hnames : Recipe.standard.subpath.flatMap Path.namesOf =
      [("src" : Text), ("emulation" : Text), ("mod.rs" : Text)] := by
    decide +kernel
  rw [Metadata.Package.tablePath, Path.joinAll_of_relative hrelative, hnames]

theorem exists_tablePath_eq (package : Metadata.Package) :
    ∃ anchor names, package.tablePath Recipe.standard.subpath =
      ⟨anchor, names ++ [("mod.rs" : Text)]⟩ := by
  refine ⟨package.directory.anchor,
    package.directory.names ++ [("src" : Text), ("emulation" : Text)], ?_⟩
  rw [tablePath_standard]
  simp

/-- No document takes the place of the table, whatever the directories are called. -/
theorem tablePath_target_ne (cwd : Location) {q : Request} (hrecipe : q.recipe = .standard)
    (package : Metadata.Package) :
    (package.tablePath q.recipe.subpath).target cwd ≠ (typeScriptDestination q).target cwd ∧
      (package.tablePath q.recipe.subpath).target cwd ≠ (rustDestination q).target cwd := by
  obtain ⟨names, hnames⟩ := exists_typeScriptDestination_eq hrecipe
  obtain ⟨names', hnames'⟩ := exists_rustDestination_eq hrecipe
  obtain ⟨anchor, above, hpath⟩ := exists_tablePath_eq package
  rw [hrecipe, hpath, hnames, hnames']
  exact ⟨Path.target_ne_target_of_ne (by decide +kernel) (by decide +kernel) (by decide +kernel),
    Path.target_ne_target_of_ne (by decide +kernel) (by decide +kernel) (by decide +kernel)⟩

end Generation

end EmulationBindings
