import EmulationBindings.Proofs.Table.Names
import Mathlib.Data.List.Forall2

/-!
# Profile names line by line

Which profile name a line gives depends on that line alone: one when a double quote stands somewhere
after the marker, and none otherwise.  A marker without a carriage return in it never sees how its
line ends, so the names of two texts, one below the other, are those of the first and then those of
the second.
-/

namespace EmulationBindings.Table

/-- The marker stands on the line, and a double quote somewhere after it. -/
def Announces (marker line : Text) : Prop :=
  ∃ before between after, line = before ++ marker ++ between ++ '"' :: after

/-- The name is all that stands between the first marker on the line and the next double quote. -/
structure Quotes (marker line name : Text) : Prop where
  stands : ∃ before after, line = before ++ marker ++ name ++ '"' :: after ∧
    ∀ b r, line = b ++ marker ++ r → before.length ≤ b.length
  whole : '"' ∉ name

/-! ## The name on one line -/

section

variable {marker line name : Text}

theorem quotedAfter?_eq_some_iff :
    quotedAfter? marker line = some name ↔ Quotes marker line name := by
  unfold quotedAfter?
  simp only [Option.bind_eq_bind, Option.bind_eq_some_iff]
  constructor
  · rintro ⟨⟨before, rest⟩, hmarker, ⟨value, after⟩, hquote, hvalue⟩
    obtain rfl : value = name := by simpa using hvalue
    have hline := Text.eq_of_cut?_eq_some hmarker
    have hrest : rest = _ := Text.eq_of_cut?_eq_some hquote
    refine ⟨⟨before, after, ?_, fun b r => Text.length_le_of_cut?_eq_some hmarker⟩,
      Text.not_mem_of_cut?_singleton hquote⟩
    rw [hline, hrest]
    simp
  · rintro ⟨⟨before, after, hline, hfirst⟩, hwhole⟩
    have hoccurs : line = before ++ marker ++ (name ++ '"' :: after) := by simp [hline]
    obtain ⟨b, r, hmarker, hle, -⟩ := Text.exists_cut?_of_occurs hoccurs
    have hcut := Text.eq_of_cut?_eq_some hmarker
    have hlength : (b ++ marker).length = (before ++ marker).length := by
      simp [Nat.le_antisymm hle (hfirst b r hcut)]
    obtain ⟨-, rfl⟩ := List.append_inj (hcut.symm.trans hoccurs) hlength
    exact ⟨_, hmarker, _, Text.cut?_singleton_of_not_mem hwhole after, rfl⟩

/-- Only the first marker on a line is tried, but a quote after any other one is also a quote after
the first. -/
theorem isSome_quotedAfter?_iff : (quotedAfter? marker line).isSome ↔ Announces marker line := by
  constructor
  · intro hsome
    obtain ⟨name, hname⟩ := Option.isSome_iff_exists.mp hsome
    obtain ⟨before, after, hline, -⟩ := (quotedAfter?_eq_some_iff.mp hname).stands
    exact ⟨before, name, after, hline⟩
  · rintro ⟨before, between, after, hline⟩
    have hoccurs : line = before ++ marker ++ (between ++ '"' :: after) := by simp [hline]
    obtain ⟨b, r, hmarker, -, hsuffix⟩ := Text.exists_cut?_of_occurs hoccurs
    have hquote : '"' ∈ r := hsuffix.subset (by simp)
    obtain ⟨between', after', hr⟩ := List.append_of_mem hquote
    have hquoted : r = between' ++ ['"'] ++ after' := by simpa using hr
    obtain ⟨value, rest, hvalue, -⟩ := Text.exists_cut?_of_occurs hquoted
    have hname : quotedAfter? marker line = some value := by
      simp only [quotedAfter?, hmarker, Option.bind_eq_bind, Option.bind_some]
      exact congrArg (Option.bind · _) hvalue
    exact Option.isSome_iff_exists.mpr ⟨value, hname⟩

theorem Quotes.announces (hquotes : Quotes marker line name) : Announces marker line := by
  obtain ⟨before, after, hline, -⟩ := hquotes.stands
  exact ⟨before, name, after, hline⟩

theorem Announces.exists_quotes (hannounces : Announces marker line) :
    ∃ name, Quotes marker line name := by
  obtain ⟨name, hname⟩ := Option.isSome_iff_exists.mp (isSome_quotedAfter?_iff.mpr hannounces)
  exact ⟨name, quotedAfter?_eq_some_iff.mp hname⟩

instance (marker line : Text) : Decidable (Announces marker line) :=
  decidable_of_iff _ isSome_quotedAfter?_iff

theorem announces_of_quotedAfter?_eq_some (hname : quotedAfter? marker line = some name) :
    Announces marker line := by
  rw [← isSome_quotedAfter?_iff, hname]
  rfl

theorem quotedAfter?_eq_none_iff : quotedAfter? marker line = none ↔ ¬ Announces marker line := by
  rw [← isSome_quotedAfter?_iff, Option.not_isSome_iff_eq_none]

theorem quotedAfter?_eq (marker line : Text) :
    quotedAfter? marker line =
      (Text.cut? marker line).bind fun found => (Text.cut? ['"'] found.2).map Prod.fst := by
  unfold quotedAfter?
  cases Text.cut? marker line with
  | none => rfl
  | some found => exact Option.map_eq_bind.symm

/-- A marker without a carriage return does not see whether the line ends in one. -/
theorem quotedAfter?_append_return (hmarker : '\r' ∉ marker) (line : Text) :
    quotedAfter? marker (line ++ ['\r']) = quotedAfter? marker line := by
  have hquote : '\r' ∉ ['"'] := by decide
  rw [quotedAfter?_eq, quotedAfter?_eq, Text.cut?_append_singleton hmarker, Option.bind_map]
  congr 1
  funext found
  simp [Text.cut?_append_singleton hquote, Function.comp_def]

theorem quotedAfter?_dropReturn (hmarker : '\r' ∉ marker) (line : Text) :
    quotedAfter? marker (Text.dropReturn line) = quotedAfter? marker line :=
  Text.apply_dropReturn (quotedAfter?_append_return hmarker) line

end

/-! ## The names of a source -/

section

variable {r : Recipe}

theorem mem_profileNames_iff {source name : Text} :
    name ∈ profileNames r source ↔
      ∃ line ∈ Text.lines source, Quotes r.profileMarker line name := by
  simp only [profileNames, List.mem_filterMap, quotedAfter?_eq_some_iff]

theorem profileNames_eq (hmarker : '\r' ∉ r.profileMarker) (source : Text) :
    profileNames r source = (source.splitOn '\n').filterMap (quotedAfter? r.profileMarker) :=
  Text.filterMap_lines (quotedAfter?_dropReturn hmarker) source

theorem forall₂_quotes_filterMap (marker : Text) (ls : List Text) :
    List.Forall₂ (Quotes marker) (ls.filter (Announces marker ·))
      (ls.filterMap (quotedAfter? marker)) := by
  induction ls with
  | nil => exact .nil
  | cons line rest ih =>
      cases hname : quotedAfter? marker line with
      | none =>
          have hnot := quotedAfter?_eq_none_iff.mp hname
          rw [List.filterMap_cons_none hname, List.filter_cons_of_neg (by simpa using hnot)]
          exact ih
      | some name =>
          have hline := announces_of_quotedAfter?_eq_some hname
          rw [List.filterMap_cons_some hname, List.filter_cons_of_pos (by simpa using hline)]
          exact .cons (quotedAfter?_eq_some_iff.mp hname) ih

theorem filterMap_filter_announces (marker : Text) (ls : List Text) :
    (ls.filter (Announces marker ·)).filterMap (quotedAfter? marker) =
      ls.filterMap (quotedAfter? marker) := by
  rw [List.filterMap_filter]
  congr 1
  funext line
  cases hname : quotedAfter? marker line with
  | none => simp
  | some name => simp [announces_of_quotedAfter?_eq_some hname]

/-- The names of a source are those of its lines: one for each line on which a quote follows the
marker, and none for any other line, so lines of the other kind can be put in or taken out
anywhere. -/
theorem profile_names_line_by_line (hmarker : '\r' ∉ r.profileMarker) :
    (∀ first second, profileNames r (first ++ '\n' :: second) =
      profileNames r first ++ profileNames r second) ∧
    (∀ source, List.Forall₂ (Quotes r.profileMarker)
      ((source.splitOn '\n').filter (Announces r.profileMarker ·)) (profileNames r source)) ∧
    (∀ source source',
      (source.splitOn '\n').filter (Announces r.profileMarker ·) =
        (source'.splitOn '\n').filter (Announces r.profileMarker ·) →
      profileNames r source = profileNames r source') ∧
    ∀ source, ∀ name ∈ profileNames r source, '"' ∉ name ∧ '\n' ∉ name := by
  refine ⟨fun first second => ?_, fun source => ?_, fun source source' hsame => ?_,
    fun source name hname => ⟨quote_not_mem_of_mem_profileNames hname,
      newline_not_mem_of_mem_profileNames hname⟩⟩
  · simp only [profileNames_eq hmarker]
    rw [List.splitOn_append_cons_self, List.filterMap_append]
  · rw [profileNames_eq hmarker]
    exact forall₂_quotes_filterMap r.profileMarker (source.splitOn '\n')
  · rw [profileNames_eq hmarker, profileNames_eq hmarker, ← filterMap_filter_announces, hsame,
      filterMap_filter_announces]

end

/-- The first two texts meet at a carriage return, which becomes a part of a line ending.  The last
two differ in lines without a match. -/
theorem profile_names_line_by_line_of_return_at_seam :
    '\r' ∉ Recipe.standard.profileMarker ∧
      profileNames .standard
        ("A => (\"a\", x),\r".toList ++ '\n' :: "B => (b),\nC => (\"c\", => (\"d\"".toList) =
        ["a".toList, "c".toList] ∧
      profileNames .standard "B => (\"b\nA => (\"a\"\r\n".toList =
        profileNames .standard "A => (\"a\"\r".toList := by
  have hmarker : '\r' ∉ Recipe.standard.profileMarker := by decide
  obtain ⟨hseam, -, hsame, -⟩ := profile_names_line_by_line hmarker
  refine ⟨hmarker, ?_, hsame _ _ (by decide +kernel)⟩
  rw [hseam]
  decide +kernel

end EmulationBindings.Table
