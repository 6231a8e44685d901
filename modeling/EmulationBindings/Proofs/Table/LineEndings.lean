import EmulationBindings.Proofs.Extraction
import EmulationBindings.Proofs.Table.Profiles

/-!
# Line endings of a source

A source can come with any line endings: line feeds, carriage returns before them, one or many, and
some at the very end.  A carriage return at the end of a line can be in no marker and is no quote,
so neither scan sees it, and all that is made of a source is the same with other line endings.
-/

namespace EmulationBindings

/-- None of the markers that the scans look for has a carriage return in it. -/
structure Recipe.ReturnFree (r : Recipe) : Prop where
  profileMarker : '\r' ∉ r.profileMarker
  plainMarker : '\r' ∉ r.plainMarker
  systemType : '\r' ∉ r.systemType
  systemMarker : '\r' ∉ r.systemMarker
  blockEnd : '\r' ∉ r.blockEnd

/-- Piece by piece between the line feeds, the same but for carriage returns at the ends. -/
def Text.SameButReturns (t t' : Text) : Prop :=
  List.Forall₂ (fun piece piece' => trimReturns piece = trimReturns piece')
    (t.splitOn '\n') (t'.splitOn '\n')

instance (t t' : Text) : Decidable (t.SameButReturns t') :=
  inferInstanceAs (Decidable (List.Forall₂ _ _ _))

theorem Text.SameButReturns.map_trimReturns_lines_eq {t t' : Text} (hsame : t.SameButReturns t') :
    (lines t).map trimReturns = (lines t').map trimReturns := by
  have hpieces : List.Forall₂ Eq ((t.splitOn '\n').map trimReturns)
      ((t'.splitOn '\n').map trimReturns) :=
    List.forall₂_map_left_iff.mpr (List.forall₂_map_right_iff.mpr hsame)
  rw [map_trimReturns_lines, map_trimReturns_lines]
  rwa [List.forall₂_eq_eq_eq] at hpieces

namespace Table

theorem occurs_append_return {marker : Text} (hmarker : '\r' ∉ marker) (line : Text) :
    Text.occurs marker (line ++ ['\r']) = Text.occurs marker line := by
  unfold Text.occurs
  rw [Text.cut?_append_singleton hmarker, Option.isSome_map]

variable {r : Recipe} {source source' : Text}

/-! ## The scanner -/

theorem Scanner.feed_append_return (hr : r.ReturnFree) (s : Scanner) (line : Text) :
    s.feed r (line ++ ['\r']) = s.feed r line := by
  unfold Scanner.feed
  rw [occurs_append_return hr.plainMarker, occurs_append_return hr.systemType,
    occurs_append_return hr.blockEnd, quotedAfter?_append_return hr.systemMarker]

theorem Scanner.foldl_feed_map_trimReturns (hr : r.ReturnFree) (s : Scanner) (ls : List Text) :
    (ls.map Text.trimReturns).foldl (Scanner.feed r) s = ls.foldl (Scanner.feed r) s := by
  have hfeed (s : Scanner) (line : Text) : s.feed r (Text.trimReturns line) = s.feed r line :=
    Text.apply_trimReturns (Scanner.feed_append_return hr s) line
  rw [List.foldl_map]
  simp only [hfeed]

theorem scanSystems_of_sameButReturns (hr : r.ReturnFree) (hsame : source.SameButReturns source') :
    scanSystems r source = scanSystems r source' := by
  unfold scanSystems
  rw [Scanner.feedAll_eq_foldl, Scanner.feedAll_eq_foldl,
    ← Scanner.foldl_feed_map_trimReturns hr, hsame.map_trimReturns_lines_eq,
    Scanner.foldl_feed_map_trimReturns hr]

/-! ## The names of profiles -/

theorem filterMap_quotedAfter?_map_trimReturns {marker : Text} (hmarker : '\r' ∉ marker)
    (ls : List Text) :
    (ls.map Text.trimReturns).filterMap (quotedAfter? marker) =
      ls.filterMap (quotedAfter? marker) := by
  have hname (line : Text) :
      quotedAfter? marker (Text.trimReturns line) = quotedAfter? marker line :=
    Text.apply_trimReturns (quotedAfter?_append_return hmarker) line
  rw [List.filterMap_map]
  simp only [Function.comp_def, hname]

theorem profileNames_of_sameButReturns (hmarker : '\r' ∉ r.profileMarker)
    (hsame : source.SameButReturns source') :
    profileNames r source = profileNames r source' := by
  unfold profileNames
  rw [← filterMap_quotedAfter?_map_trimReturns hmarker, hsame.map_trimReturns_lines_eq,
    filterMap_quotedAfter?_map_trimReturns hmarker]

end Table

namespace Tables

/-- Sources that differ in their line endings only have the same names in both tables, and what is
made of them is the same: both documents, or the failure, and all that is noted on the way. -/
theorem generate_of_sameButReturns {r : Recipe} {source source' : Text} (hr : r.ReturnFree)
    (hsame : source.SameButReturns source') :
    Table.profileNames r source = Table.profileNames r source' ∧
      Table.systemNames r source = Table.systemNames r source' ∧
      ∀ w, (generate r source).result w = (generate r source').result w := by
  have hprofiles := Table.profileNames_of_sameButReturns hr.profileMarker hsame
  have hscan := Table.scanSystems_of_sameButReturns hr hsame
  refine ⟨hprofiles, congrArg Table.Scanner.names hscan, fun w => ?_⟩
  unfold generate extract scanProfiles scanSystems
  rw [hprofiles, hscan]

/-- One source with line feeds only, one with up to two carriage returns before them, one at its
end and one behind a name that is never closed. -/
theorem generate_of_sameButReturns_of_mixed_endings :
    let source : Text := "A => (\"a\", x)\nB => (\"b\nplain,\nEmulationOS\nL => \"linux\",\n);"
    let source' : Text :=
      "A => (\"a\", x)\r\r\nB => (\"b\r\nplain,\r\nEmulationOS\nL => \"linux\",\r\n);\r"
    Recipe.standard.ReturnFree ∧ source.SameButReturns source' ∧ source ≠ source' ∧
      Table.profileNames .standard source' = [("a" : Text)] ∧
      Table.systemNames .standard source' = [("linux" : Text)] ∧
      ∀ w, (generate .standard source).result w = (generate .standard source').result w := by
  intro source source'
  have hr : Recipe.standard.ReturnFree :=
    ⟨by decide, by decide, by decide, by decide, by decide⟩
  have hsame : source.SameButReturns source' := by decide +kernel
  obtain ⟨hprofiles, hsystems, hgenerate⟩ := generate_of_sameButReturns hr hsame
  exact ⟨hr, hsame, by decide +kernel, hprofiles.symm.trans (by decide +kernel),
    hsystems.symm.trans (by decide +kernel), hgenerate⟩

end Tables

end EmulationBindings
