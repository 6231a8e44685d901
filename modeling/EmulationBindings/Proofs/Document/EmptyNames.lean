import EmulationBindings.Proofs.Document.Entries
import EmulationBindings.Proofs.Table.Acceptance

/-!
# Empty names

Two double quotes in a row give an empty name when a marker ends in the first of them.  Nothing
behind the scans turns such a name down, since the gate asks for a name and not for a character in
it.  So a table has an empty name exactly when it is read off a line whose first marker has a
double quote directly behind it, and an empty name in either table is an empty literal in both
documents.
-/

namespace EmulationBindings.Document

open EmulationBindings.Table

/-- Some line of the document is a member of a union, the last one or another, with an empty
literal. -/
def HasEmptyMember (t : Text) : Prop :=
  ∃ line ∈ t.splitOn '\n', line = ("  | ''" : Text) ∨ line = ("  | '';" : Text)

/-- Some line of the document is an item of an array, with an empty literal. -/
def HasEmptyItem (t : Text) : Prop := ("    \"\"," : Text) ∈ t.splitOn '\n'

theorem mem_entryLines_iff {opening line t : Text} (hopens : opensWith opening line = true) :
    line ∈ entryLines opening t ↔ line ∈ t.splitOn '\n' := by
  rw [entryLines, List.mem_filter, and_iff_left hopens]

/-! ## Empty literals in each document -/

theorem exists_empty_mem_unionMembers_iff (names : List Text) :
    (∃ line ∈ unionMembers names, line = ("  | ''" : Text) ∨ line = ("  | '';" : Text)) ↔
      [] ∈ names := by
  constructor
  · rintro ⟨line, hline, hempty⟩
    obtain ⟨name, hname, i, rfl⟩ := exists_of_mem_unionMembers hline
    have hnil : name = [] := by
      unfold unionClosing at hempty
      rcases name with _ | ⟨c, _ | ⟨d, rest⟩⟩
      · rfl
      · split at hempty <;> simp [unionIndent] at hempty
      · split at hempty <;> simp [unionIndent] at hempty
    rwa [← hnil]
  · intro hmem
    obtain ⟨i, hi⟩ := List.mem_iff_getElem?.mp hmem
    refine ⟨_, List.mem_of_getElem? (getElem?_unionMembers hi), ?_⟩
    unfold unionClosing
    split
    · exact .inr rfl
    · exact .inl rfl

theorem hasEmptyMember_iff {profiles systems : List Text} {t : Text}
    (hprofiles : OneLine profiles) (hsystems : OneLine systems)
    (ht : typeScript .standard profiles systems = .ok t) :
    HasEmptyMember t ↔ [] ∈ profiles ∨ [] ∈ systems := by
  have hopens (line : Text) (hempty : line = ("  | ''" : Text) ∨ line = ("  | '';" : Text)) :
      opensWith (unionIndent ++ ['\'']) line = true := by
    rcases hempty with rfl | rfl <;> decide
  have hentries : HasEmptyMember t ↔ ∃ line ∈ entryLines (unionIndent ++ ['\'']) t,
      line = ("  | ''" : Text) ∨ line = ("  | '';" : Text) :=
    exists_congr fun line => and_congr_left fun hempty =>
      (mem_entryLines_iff (hopens line hempty)).symm
  rw [hentries, entryLines_typeScript hprofiles hsystems ht,
    ← exists_empty_mem_unionMembers_iff profiles, ← exists_empty_mem_unionMembers_iff systems]
  simp only [List.mem_append, or_and_right, exists_or]

theorem hasEmptyItem_iff {profiles systems : List Text} {t : Text}
    (hprofiles : OneLine profiles) (hsystems : OneLine systems)
    (ht : rust .standard profiles systems = .ok t) :
    HasEmptyItem t ↔ [] ∈ profiles ∨ [] ∈ systems := by
  have hitem : ("    \"\"," : Text) = arrayItem [] := rfl
  have hinj : Function.Injective arrayItem := fun _ _ => arrayItem_inj
  have hopens : opensWith (arrayIndent ++ ['"']) ("    \"\"," : Text) = true := by decide
  rw [HasEmptyItem, ← mem_entryLines_iff hopens, entryLines_rust hprofiles hsystems ht, hitem,
    List.mem_append, List.mem_map_of_injective hinj, List.mem_map_of_injective hinj]

/-! ## Where empty names come from -/

/-- The profiles have an empty name exactly when on some line a double quote directly follows the
first marker, and the operating systems when this is so on some line of their block.  An empty name
in either table is an empty literal in both documents, and there is no other way to get one. -/
theorem empty_literals_iff (source : Text) :
    ([] ∈ profileNames .standard source ↔
      ∃ line ∈ Text.lines source, Quotes Recipe.standard.profileMarker line []) ∧
    ([] ∈ systemNames .standard source ↔
      ∃ i j m, SystemAt .standard (Text.lines source) i j m ∧
        ∃ line ∈ (Text.lines source)[m]?, Quotes Recipe.standard.systemMarker line []) ∧
    ∀ w w' typeScript rust,
      (Tables.generate .standard source).result w = (.ok (typeScript, rust), w') →
      (HasEmptyMember typeScript ↔
        [] ∈ profileNames .standard source ∨ [] ∈ systemNames .standard source) ∧
      (HasEmptyItem rust ↔
        [] ∈ profileNames .standard source ∨ [] ∈ systemNames .standard source) := by
  refine ⟨mem_profileNames_iff, mem_systemNames_iff, fun w w' typeScript rust hrun => ?_⟩
  have hprofiles := oneLine_profileNames .standard source
  have hsystems := oneLine_systemNames .standard source
  obtain ⟨htypeScript, hrust⟩ := Tables.generate_eq_ok hrun
  exact ⟨hasEmptyMember_iff hprofiles hsystems htypeScript,
    hasEmptyItem_iff hprofiles hsystems hrust⟩

/-- The quotes behind the second marker of a line give no name, those in the block give one. -/
theorem empty_literals_iff_of_empty_system :
    let source : Text := "A => (\"a\", B => (\"\"\n=> \"\"\nplain,\nEmulationOS\nL => \"\",\n);\n"
    ∃ typeScript rust w',
      (Tables.generate .standard source).result { disk := .empty } =
        (.ok (typeScript, rust), w') ∧
      [] ∉ profileNames .standard source ∧ [] ∈ systemNames .standard source ∧
      HasEmptyMember typeScript ∧ HasEmptyItem rust := by
  intro source
  obtain ⟨⟨typeScript, rust⟩, w', hrun⟩ := Action.exists_result_of_isOk
    (x := Tables.generate .standard source) (w := { disk := .empty }) (by decide +kernel)
  have hprofiles : [] ∉ profileNames .standard source := by decide +kernel
  have hsystems : [] ∈ systemNames .standard source := by decide +kernel
  obtain ⟨hmember, hitem⟩ := (empty_literals_iff source).2.2 _ _ _ _ hrun
  exact ⟨typeScript, rust, w', hrun, hprofiles, hsystems, hmember.mpr (.inr hsystems),
    hitem.mpr (.inr hsystems)⟩

/-- Both tables hold an empty name beside another one, and both documents an empty literal. -/
theorem empty_names_pass_the_gate :
    let source : Text :=
      "A => (\"\", x)\nB => (\"b\", y)\nplain,\nEmulationOS\nL => \"\",\nM => \"m\",\n);\n"
    ∃ typeScript rust w',
      (Tables.generate .standard source).result { disk := .empty } =
        (.ok (typeScript, rust), w') ∧
      profileNames .standard source = [[], ("b" : Text)] ∧
      systemNames .standard source = [[], ("m" : Text)] ∧
      HasEmptyMember typeScript ∧ HasEmptyItem rust := by
  intro source
  obtain ⟨⟨typeScript, rust⟩, w', hrun⟩ := Action.exists_result_of_isOk
    (x := Tables.generate .standard source) (w := { disk := .empty }) (by decide +kernel)
  have hprofiles : profileNames .standard source = [[], ("b" : Text)] := by decide +kernel
  have hsystems : systemNames .standard source = [[], ("m" : Text)] := by decide +kernel
  have hempty : [] ∈ profileNames .standard source ∨ [] ∈ systemNames .standard source := by
    simp [hprofiles]
  obtain ⟨htypeScript, hrust⟩ := Tables.generate_eq_ok hrun
  exact ⟨typeScript, rust, w', hrun, hprofiles, hsystems,
    (hasEmptyMember_iff (oneLine_profileNames .standard source)
      (oneLine_systemNames .standard source) htypeScript).mpr hempty,
    (hasEmptyItem_iff (oneLine_profileNames .standard source)
      (oneLine_systemNames .standard source) hrust).mpr hempty⟩

end EmulationBindings.Document
