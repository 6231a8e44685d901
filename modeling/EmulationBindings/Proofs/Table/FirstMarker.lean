import EmulationBindings.Proofs.Table.Profiles

/-!
# The first marker on a line

Only the first marker on a line is tried, and no name is lost by that: all that comes after a later
marker also comes after the first, so a double quote after any of them is one after the first.  This
holds of every marker, of an empty one, of one that overlaps itself and of one with double quotes in
it.
-/

namespace EmulationBindings.Table

/-- The marker begins at the place `i` of the line. -/
def StandsAt (marker line : Text) (i : ℕ) : Prop := marker <+: line.drop i

section

variable {marker line : Text}

theorem standsAt_of_eq_append {before after : Text} (hline : line = before ++ marker ++ after) :
    StandsAt marker line before.length ∧ line.drop (before.length + marker.length) = after := by
  have hhere : line.drop before.length = marker ++ after := by
    rw [hline, List.append_assoc, List.drop_left]
  refine ⟨⟨after, hhere.symm⟩, ?_⟩
  rw [← List.drop_drop, hhere, List.drop_left]

theorem StandsAt.eq_append {i : ℕ} (hstands : StandsAt marker line i) :
    line = line.take i ++ marker ++ line.drop (i + marker.length) := by
  obtain ⟨after, hafter⟩ := hstands
  have hrest : line.drop (i + marker.length) = after := by
    rw [← List.drop_drop, ← hafter, List.drop_left]
  calc line = line.take i ++ line.drop i := (List.take_append_drop i line).symm
    _ = line.take i ++ marker ++ line.drop (i + marker.length) := by
      rw [hrest, ← hafter, List.append_assoc]

/-- No marker before a place, once by places and once by what stands before each marker. -/
theorem forall_lt_not_standsAt_iff {n : ℕ} (hn : n ≤ line.length) :
    (∀ i < n, ¬ StandsAt marker line i) ↔
      ∀ before after, line = before ++ marker ++ after → n ≤ before.length := by
  constructor
  · intro hnone before after hline
    by_contra hlt
    exact hnone before.length (not_le.mp hlt) (standsAt_of_eq_append hline).1
  · intro hall i hi hstands
    have hle := hall _ _ hstands.eq_append
    rw [List.length_take] at hle
    omega

theorem quotes_iff {name : Text} :
    Quotes marker line name ↔
      ∃ before after, line = before ++ marker ++ name ++ '"' :: after ∧ '"' ∉ name ∧
        ∀ i < before.length, ¬ StandsAt marker line i := by
  have hlength {before after : Text} (hline : line = before ++ marker ++ name ++ '"' :: after) :
      before.length ≤ line.length := by
    rw [hline]
    simp only [List.length_append]
    omega
  constructor
  · rintro ⟨⟨before, after, hline, hfirst⟩, hwhole⟩
    exact ⟨before, after, hline, hwhole,
      (forall_lt_not_standsAt_iff (hlength hline)).mpr hfirst⟩
  · rintro ⟨before, after, hline, hwhole, hfirst⟩
    exact ⟨⟨before, after, hline,
      (forall_lt_not_standsAt_iff (hlength hline)).mp hfirst⟩, hwhole⟩

theorem announces_iff_exists_standsAt :
    Announces marker line ↔
      ∃ i, StandsAt marker line i ∧ '"' ∈ line.drop (i + marker.length) := by
  constructor
  · rintro ⟨before, between, after, hline⟩
    have hmarker : line = before ++ marker ++ (between ++ '"' :: after) := by simp [hline]
    obtain ⟨hstands, hdrop⟩ := standsAt_of_eq_append hmarker
    exact ⟨before.length, hstands, by simp [hdrop]⟩
  · rintro ⟨i, hstands, hquote⟩
    obtain ⟨between, after, hdrop⟩ := List.append_of_mem hquote
    refine ⟨line.take i, between, after, ?_⟩
    rw [List.append_assoc, ← hdrop]
    exact hstands.eq_append

end

/-- A name is what stands between the first marker and the double quote next to come, and a line has
none exactly when no double quote comes after any marker on it. -/
theorem first_marker_loses_nothing (marker line : Text) :
    (∀ name, quotedAfter? marker line = some name ↔
      ∃ before after, line = before ++ marker ++ name ++ '"' :: after ∧ '"' ∉ name ∧
        ∀ i < before.length, ¬ StandsAt marker line i) ∧
    (quotedAfter? marker line = none ↔
      ∀ before between after, line ≠ before ++ marker ++ between ++ '"' :: after) ∧
    (quotedAfter? marker line = none ↔
      ∀ i, StandsAt marker line i → '"' ∉ line.drop (i + marker.length)) := by
  refine ⟨fun name => quotedAfter?_eq_some_iff.trans quotes_iff, ?_, ?_⟩
  · rw [quotedAfter?_eq_none_iff]
    simp only [Announces, not_exists, ne_eq]
  · rw [quotedAfter?_eq_none_iff, announces_iff_exists_standsAt]
    simp only [not_exists, not_and]

/-- A marker of two quotes that stands at two places at once, with a name behind the later one only,
and one that overlaps itself on a line whose quote is too early. -/
theorem first_marker_loses_nothing_of_overlapping_markers :
    let quotes : Text := "\"\""
    let line : Text := "=\"\"\"a\""
    let early : Text := "\"ababa"
    quotedAfter? quotes line = some [] ∧ StandsAt quotes line 2 ∧
      (∃ before after, line = before ++ quotes ++ [] ++ '"' :: after ∧ '"' ∉ ([] : Text) ∧
        ∀ i < before.length, ¬ StandsAt quotes line i) ∧
      quotedAfter? "aba".toList early = none ∧ StandsAt "aba".toList early 3 ∧
      '"' ∉ early.drop (3 + "aba".toList.length) := by
  intro quotes line early
  have hname : quotedAfter? quotes line = some [] := by decide
  have hnone : quotedAfter? "aba".toList early = none := by decide
  have hlater : StandsAt quotes line 2 := ⟨"a\"".toList, by decide⟩
  have hlast : StandsAt "aba".toList early 3 := ⟨[], by decide⟩
  exact ⟨hname, hlater, ((first_marker_loses_nothing quotes line).1 []).mp hname, hnone, hlast,
    (first_marker_loses_nothing "aba".toList early).2.2.mp hnone 3 hlast⟩

end EmulationBindings.Table
