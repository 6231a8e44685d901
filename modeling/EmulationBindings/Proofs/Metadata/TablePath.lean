import EmulationBindings.Metadata.Package
import EmulationBindings.Proofs.Path.Spelling

/-!
# Where the table of a package is

The path of the table is that of the package's directory with the parts of the subpath behind it.
Neither the name of the manifest nor the spelling of the directory matters, and an absolute part of
the subpath takes the place of all that is before it.
-/

namespace EmulationBindings.Metadata

open EmulationBindings.Path (IsFileName Respells anchorOf namesOf ofText)

/-- The manifest is a file right in the directory.  It is written as a path is, or, when the
directory has a name in it, behind the directory just as that is spelled. -/
inductive Package.LiesIn (p : Package) (d : Text) : Prop
  | asPath {f : Text} (hf : IsFileName f)
      (hmanifest : p.manifestPath = ((ofText d).join (ofText f)).text)
  | asText {f : Text} (hf : IsFileName f) (hnamed : namesOf d ≠ [])
      (hmanifest : p.manifestPath = d ++ '/' :: f)

theorem Package.LiesIn.directory_eq {p : Package} {d : Text} (hp : p.LiesIn d) :
    p.directory = ofText d := by
  unfold Package.directory
  cases hp with
  | @asPath f hf hmanifest =>
      have hplain := (Path.plain_ofText d).join (Path.plain_ofText f)
      rw [hmanifest, Json.Str.shown, Path.ofText_text hplain, Path.parent_join_fileName hf]
  | asText hf hnamed hmanifest =>
      rw [hmanifest, Json.Str.shown, Path.ofText_append_fileName hnamed hf,
        Path.parent_join_fileName hf]

theorem Package.LiesIn.tablePath_eq {p : Package} {d : Text} (hp : p.LiesIn d)
    (parts : List Text) : p.tablePath parts = (ofText d).joinAll parts :=
  congrArg (Path.joinAll · parts) hp.directory_eq

/-- Two packages whose directories are the same but for their spelling have their tables at the same
path, which is the directory with the parts in order behind it.  What stands before an absolute part
has no influence on the path, be it another part or the package. -/
theorem table_path_known_by_directory {p q : Package} {d d' : Text} (hp : p.LiesIn d)
    (hq : q.LiesIn d') (hsame : Respells d d') (parts : List Text) :
    p.tablePath parts = (ofText d).joinAll parts ∧
    q.tablePath parts = p.tablePath parts ∧
    ((∀ part ∈ parts, part.head? ≠ some '/') →
      p.tablePath parts = ⟨anchorOf d, namesOf d ++ parts.flatMap namesOf⟩) ∧
    ∀ before part after, parts = before ++ part :: after → part.head? = some '/' →
      p.tablePath parts = (ofText part).joinAll after ∧
      ∀ (r : Package) (others : List Text),
        r.tablePath (others ++ part :: after) = p.tablePath parts := by
  have hpath := hp.tablePath_eq parts
  refine ⟨hpath, ?_, fun hparts => hpath.trans (Path.joinAll_of_relative hparts), ?_⟩
  · rw [hpath, hq.tablePath_eq, hsame.ofText_eq]
  · rintro before part after rfl hpart
    have hlast (r : Package) (others : List Text) :
        r.tablePath (others ++ part :: after) = (ofText part).joinAll after :=
      Path.joinAll_append_of_absolute hpart others after
    exact ⟨hlast p before, fun r others => (hlast r others).trans (hlast p before).symm⟩

/-- The directory goes up at its end, and the second manifest is called `..` itself. -/
theorem table_path_known_by_directory_of_respelled :
    let d : Text := "//a/.."
    let d' : Text := "//a//./../"
    let p : Package := ⟨"wreq-util".toList, none, "//a/../Cargo.toml".toList⟩
    let q : Package := ⟨"wreq-util".toList, some "1".toList, "//a//./..//..".toList⟩
    p.LiesIn d ∧ q.LiesIn d' ∧ Respells d d' ∧
      p.tablePath ["src".toList, "./lib//".toList] =
        ⟨.doubleRoot, ["a".toList, "..".toList, "src".toList, "lib".toList]⟩ ∧
      q.tablePath ["src".toList, "./lib//".toList] =
        p.tablePath ["src".toList, "./lib//".toList] ∧
      (∀ r : Package, r.tablePath ["/opt/.".toList, "lib".toList] =
        p.tablePath ["src".toList, "/opt/.".toList, "lib".toList]) ∧
      p.tablePath ["src".toList, "/opt/.".toList, "lib".toList] =
        ⟨.root, ["opt".toList, "lib".toList]⟩ := by
  intro d d' p q
  have hmanifest : IsFileName "Cargo.toml".toList := ⟨by decide, by decide, by decide⟩
  have hupwards : IsFileName "..".toList := ⟨by decide, by decide, by decide⟩
  have hp : p.LiesIn d := .asPath hmanifest (by decide +kernel)
  have hq : q.LiesIn d' := .asText hupwards (by decide +kernel) (by decide +kernel)
  have hslash : Path.Padded d "//a//..".toList :=
    @Path.Padded.doubledSlash "//a".toList "..".toList (by decide +kernel)
  have hdot : Path.Padded "//a//..".toList "//a//./..".toList :=
    @Path.Padded.innerDot "//a/".toList "..".toList (by decide +kernel)
  have hlast : Path.Padded "//a//./..".toList d' := .lastSlash (by decide +kernel)
  have hsame : Respells d d' :=
    .trans _ _ _ (.rel _ _ hslash) (.trans _ _ _ (.rel _ _ hdot) (.rel _ _ hlast))
  obtain ⟨-, hagree, hrelative, -⟩ :=
    table_path_known_by_directory hp hq hsame ["src".toList, "./lib//".toList]
  obtain ⟨-, -, -, habsolute⟩ :=
    table_path_known_by_directory hp hq hsame ["src".toList, "/opt/.".toList, "lib".toList]
  obtain ⟨hafresh, hothers⟩ :=
    habsolute ["src".toList] "/opt/.".toList ["lib".toList] rfl (by decide)
  exact ⟨hp, hq, hsame, (hrelative (by decide)).trans (by decide +kernel), hagree,
    fun r => hothers r [], hafresh.trans (by decide +kernel)⟩

end EmulationBindings.Metadata
