import EmulationBindings.Proofs.Disk.Target

/-!
# Making directories

Making a directory with all that lead to it only adds directories, and only at places that the
path passes.  This holds also when it fails half way, with those made so far left in place.
-/

namespace EmulationBindings

theorem Path.stations_mono (cwd : Location) (anchor : Anchor)
    {before names : List Text} (hbefore : before <+: names) :
    Path.stations cwd ⟨anchor, before⟩ ⊆ Path.stations cwd ⟨anchor, names⟩ := by
  rintro l ⟨above, habove, rfl⟩
  exact ⟨above, habove.trans hbefore, rfl⟩

theorem Path.target_mem_stations (cwd : Location) (p : Path) :
    p.target cwd ∈ p.stations cwd :=
  ⟨p.names, List.prefix_rfl, rfl⟩

namespace Disk

/-- Everywhere `d'` is as `d`, except for directories at some of the places where `d` has
nothing. -/
def GrownAt (places : Set Location) (d d' : Disk) : Prop :=
  ∀ l, d'.get? l = d.get? l ∨
    l ∈ places ∧ d.get? l = none ∧ d'.get? l = some .directory

theorem GrownAt.refl (places : Set Location) (d : Disk) : GrownAt places d d :=
  fun _ => .inl rfl

theorem GrownAt.mono {places more : Set Location} {d d' : Disk}
    (hgrown : GrownAt places d d') (hsub : places ⊆ more) :
    GrownAt more d d' :=
  fun l => (hgrown l).imp_right fun hnew => ⟨hsub hnew.1, hnew.2⟩

theorem GrownAt.trans {places : Set Location} {d₁ d₂ d₃ : Disk}
    (h₁₂ : GrownAt places d₁ d₂) (h₂₃ : GrownAt places d₂ d₃) :
    GrownAt places d₁ d₃ := by
  intro l
  rcases h₂₃ l with hsame | ⟨hplace, hnone, hdir⟩
  · rw [hsame]
    exact h₁₂ l
  · rcases h₁₂ l with hsame | ⟨-, -, hdir'⟩
    · exact .inr ⟨hplace, hsame ▸ hnone, hdir⟩
    · rw [hdir'] at hnone
      simp at hnone

theorem GrownAt.get?_eq {places : Set Location} {d d' : Disk}
    (hgrown : GrownAt places d d') {l : Location} (hsome : d.get? l ≠ none) :
    d'.get? l = d.get? l :=
  (hgrown l).resolve_right fun hnew => hsome hnew.2.1

theorem GrownAt.keepsDirectories {places : Set Location} {d d' : Disk}
    (hgrown : GrownAt places d d') :
    d.KeepsDirectories d' := by
  intro l hdir
  rw [hgrown.get?_eq (by simp [hdir]), hdir]

theorem GrownAt.get?_eq_file_iff {places : Set Location} {d d' : Disk}
    (hgrown : GrownAt places d d') (l : Location) (content : Bytes) :
    d'.get? l = some (.file content) ↔ d.get? l = some (.file content) := by
  rcases hgrown l with hsame | ⟨-, hnone, hdir⟩
  · rw [hsame]
  · simp [hnone, hdir]

theorem GrownAt.read {places : Set Location} {d d' : Disk}
    (hgrown : GrownAt places d d') {cwd : Location} {p : Path} {content : Bytes}
    (hread : d.read cwd p = .ok content) :
    d'.read cwd p = .ok content := by
  have hnode := (read_eq_ok_iff.mp hread).2.2
  exact hgrown.keepsDirectories.read hread (hgrown.get?_eq (by simp [hnode]))

/-- One directory is made at a place where nothing is. -/
theorem makeDirectory_eq_ok {d d' : Disk} {cwd : Location} {p : Path}
    (hmake : d.makeDirectory cwd p = .ok d') :
    d.locate cwd p = .ok (p.target cwd) ∧ d.get? (p.target cwd) = none ∧
      ∀ l, d'.get? l = if l = p.target cwd then some .directory else d.get? l := by
  unfold makeDirectory at hmake
  split at hmake
  · simp at hmake
  · next l hlocate =>
    obtain rfl := locate_eq_target hlocate
    split at hmake
    · simp at hmake
    · next hnone =>
      have hroot : p.target cwd ≠ [] := by
        intro hnil
        rw [hnil, get?_root] at hnone
        simp at hnone
      obtain rfl := Except.ok.inj hmake
      exact ⟨hlocate, hnone, fun l => get?_set d (p.target cwd) l .directory hroot⟩

theorem grownAt_makeDirectory {d d' : Disk} {cwd : Location} {p : Path}
    (hmake : d.makeDirectory cwd p = .ok d') :
    GrownAt {p.target cwd} d d' := by
  obtain ⟨-, hnone, hget⟩ := makeDirectory_eq_ok hmake
  intro l
  rw [hget]
  by_cases hl : l = p.target cwd
  · exact .inr ⟨hl, hl ▸ hnone, if_pos hl⟩
  · exact .inl (if_neg hl)

theorem grownAt_settle (d : Disk) (cwd : Location) (p : Path) :
    GrownAt {p.target cwd} d (d.settle cwd p).1 := by
  unfold settle
  cases hmake : d.makeDirectory cwd p with
  | ok d' => exact grownAt_makeDirectory hmake
  | error o =>
      simp only
      split
      · exact .refl _ d
      · exact .refl _ d

theorem grownAt_settleAll (d : Disk) (cwd : Location) (anchor : Anchor) (ascent : ℕ)
    (names : List Text) :
    GrownAt (Path.stations cwd ⟨anchor, names.reverse⟩) d
      (d.settleAll cwd anchor ascent names).1 := by
  -- The names come last one first, so each step up takes one from the end of the path.
  induction names generalizing ascent with
  | nil =>
      refine (grownAt_settle d cwd ⟨anchor, []⟩).mono ?_
      rintro l rfl
      exact Path.target_mem_stations cwd ⟨anchor, []⟩
  | cons last above ih =>
      have hself (d₁ : Disk) :
          GrownAt (Path.stations cwd ⟨anchor, (last :: above).reverse⟩) d₁
            (d₁.settle cwd ⟨anchor, (last :: above).reverse⟩).1 := by
        refine (grownAt_settle d₁ cwd _).mono ?_
        rintro l rfl
        exact Path.target_mem_stations cwd _
      have habove : above.reverse <+: (last :: above).reverse := by
        rw [List.reverse_cons]
        exact List.prefix_append _ _
      unfold settleAll
      simp only
      split
      · cases ascent with
        | zero => exact .refl _ d
        | succ ascent =>
            have hbefore := (ih ascent).mono (Path.stations_mono cwd anchor habove)
            simp only
            split
            · next d' hd' =>
              rw [hd'] at hbefore
              exact hbefore.trans (hself d')
            · exact hbefore
      · exact hself d

theorem grownAt_ensureDirectory (d : Disk) (cwd : Location) (ascent : ℕ) (p : Path) :
    GrownAt (p.stations cwd) d (d.ensureDirectory cwd ascent p).1 := by
  have hall := grownAt_settleAll d cwd p.anchor ascent p.names.reverse
  rw [List.reverse_reverse] at hall
  unfold ensureDirectory
  split
  · exact .refl _ d
  · exact hall

/-! ## What has been made -/

theorem nodeAt?_of_makeDirectory {d d' : Disk} {cwd : Location} {p : Path}
    (hmake : d.makeDirectory cwd p = .ok d') : d'.nodeAt? cwd p = some .directory := by
  obtain ⟨hlocate, -, hget⟩ := makeDirectory_eq_ok hmake
  have hlocate' := (grownAt_makeDirectory hmake).keepsDirectories.locate hlocate
  rw [nodeAt?, hlocate']
  simp [hget]

theorem nodeAt?_of_settle {d d' : Disk} {cwd : Location} {p : Path}
    (hsettle : d.settle cwd p = (d', none)) : d'.nodeAt? cwd p = some .directory := by
  unfold settle at hsettle
  split at hsettle
  · next hmake =>
    obtain rfl := (Prod.mk.inj hsettle).1
    exact nodeAt?_of_makeDirectory hmake
  · split at hsettle
    · next hdir =>
      obtain rfl := (Prod.mk.inj hsettle).1
      exact hdir
    · simp at hsettle

theorem nodeAt?_of_settleAll {d d' : Disk} {cwd : Location} {anchor : Anchor} {ascent : ℕ}
    {names : List Text} (hsettle : d.settleAll cwd anchor ascent names = (d', none)) :
    d'.nodeAt? cwd ⟨anchor, names.reverse⟩ = some .directory := by
  cases names with
  | nil => exact nodeAt?_of_settle hsettle
  | cons last above =>
      unfold settleAll at hsettle
      simp only at hsettle
      split at hsettle
      · cases ascent with
        | zero => simp at hsettle
        | succ ascent =>
            simp only at hsettle
            split at hsettle
            · exact nodeAt?_of_settle hsettle
            · next hfailed => exact absurd hsettle (hfailed d')
      · exact nodeAt?_of_settle hsettle

/-- When a directory has been made, all that is written before it is a directory too. -/
theorem directories_of_ensureDirectory {d d' : Disk} {cwd : Location} {ascent : ℕ} {p : Path}
    (hensure : d.ensureDirectory cwd ascent p = (d', none)) :
    ∀ l ∈ p.stations cwd, d'.get? l = some .directory := by
  unfold ensureDirectory at hensure
  split at hensure
  · simp at hensure
  · have hnode := nodeAt?_of_settleAll hensure
    rw [List.reverse_reverse] at hnode
    exact directory_of_mem_stations hnode

/-! ## Too much to be made together -/

/-- The directory that these names lead to, last one first, and as many above it as can be made
with it cannot be made by themselves, because the next one above is missing. -/
def MissingAbove (d : Disk) (cwd : Location) (anchor : Anchor) (ascent : ℕ)
    (names : List Text) : Prop :=
  ascent < names.length ∧
    ∀ n ≤ ascent, d.makeDirectory cwd ⟨anchor, (names.drop n).reverse⟩ = .error .missing

theorem MissingAbove.makeDirectory {d : Disk} {cwd : Location} {anchor : Anchor} {ascent : ℕ}
    {names : List Text} (hmissing : MissingAbove d cwd anchor ascent names) :
    d.makeDirectory cwd ⟨anchor, names.reverse⟩ = .error .missing :=
  hmissing.2 0 (Nat.zero_le _)

end Disk

end EmulationBindings
