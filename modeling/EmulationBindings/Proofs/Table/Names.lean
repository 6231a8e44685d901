import EmulationBindings.Proofs.Table.Window
import EmulationBindings.Proofs.Text.Cut
import EmulationBindings.Proofs.Text.Lines

/-!
# Names in a table

A name is part of one line of the source, so it never holds a line feed.  It ends at the first
double quote after its marker, so it never holds a double quote either.
-/

namespace EmulationBindings.Table

theorem subset_of_quotedAfter?_eq_some {marker line name : Text}
    (hname : quotedAfter? marker line = some name) : name ⊆ line := by
  unfold quotedAfter? at hname
  simp only [Option.bind_eq_bind, Option.bind_eq_some_iff] at hname
  obtain ⟨⟨before, rest⟩, hmarker, ⟨value, after⟩, hquote, hvalue⟩ := hname
  obtain rfl : value = name := by simpa using hvalue
  intro c hc
  have hrest : rest = _ := Text.eq_of_cut?_eq_some hquote
  have hline := Text.eq_of_cut?_eq_some hmarker
  rw [hline, hrest]
  simp [hc]

/-! ## Where a scanner has its names from -/

theorem Scanner.mem_names_feed {r : Recipe} {s : Scanner} {line name : Text}
    (hname : name ∈ (s.feed r line).names) :
    name ∈ s.names ∨ quotedAfter? r.systemMarker line = some name := by
  unfold Scanner.feed at hname
  split at hname
  · split at hname <;> exact .inl hname
  · split at hname <;> exact .inl hname
  · split at hname
    · exact .inl hname
    · simpa using hname
  · exact .inl hname

theorem Scanner.mem_names_foldl_feed {r : Recipe} {s : Scanner} {ls : List Text} {name : Text}
    (hname : name ∈ (ls.foldl (Scanner.feed r) s).names) :
    name ∈ s.names ∨ ∃ line ∈ ls, quotedAfter? r.systemMarker line = some name := by
  induction ls generalizing s with
  | nil => exact .inl hname
  | cons line rest ih =>
      rcases ih hname with hmem | ⟨other, hother, hquoted⟩
      · rcases Scanner.mem_names_feed hmem with hold | hnew
        · exact .inl hold
        · exact .inr ⟨line, List.mem_cons_self, hnew⟩
      · exact .inr ⟨other, List.mem_cons_of_mem line hother, hquoted⟩

/-! ## Every name is quoted on a line -/

theorem exists_line_of_mem_profileNames {r : Recipe} {source name : Text}
    (hname : name ∈ profileNames r source) :
    ∃ line ∈ Text.lines source, quotedAfter? r.profileMarker line = some name :=
  List.mem_filterMap.mp hname

theorem exists_line_of_mem_systemNames {r : Recipe} {source name : Text}
    (hname : name ∈ systemNames r source) :
    ∃ line ∈ Text.lines source, quotedAfter? r.systemMarker line = some name := by
  rw [systemNames, scanSystems, Scanner.feedAll_eq_foldl] at hname
  rcases Scanner.mem_names_foldl_feed hname with hnone | hline
  · simp at hnone
  · exact hline

/-! ## No line feeds -/

theorem newline_not_mem_of_mem_profileNames {r : Recipe} {source name : Text}
    (hname : name ∈ profileNames r source) : '\n' ∉ name := by
  obtain ⟨line, hline, hquoted⟩ := exists_line_of_mem_profileNames hname
  intro hmem
  exact Text.newline_not_mem_of_mem_lines hline (subset_of_quotedAfter?_eq_some hquoted hmem)

theorem newline_not_mem_of_mem_systemNames {r : Recipe} {source name : Text}
    (hname : name ∈ systemNames r source) : '\n' ∉ name := by
  obtain ⟨line, hline, hquoted⟩ := exists_line_of_mem_systemNames hname
  intro hmem
  exact Text.newline_not_mem_of_mem_lines hline (subset_of_quotedAfter?_eq_some hquoted hmem)

/-! ## No double quotes -/

theorem quote_not_mem_of_quotedAfter?_eq_some {marker line name : Text}
    (hname : quotedAfter? marker line = some name) : '"' ∉ name := by
  unfold quotedAfter? at hname
  simp only [Option.bind_eq_bind, Option.bind_eq_some_iff] at hname
  obtain ⟨⟨before, rest⟩, -, ⟨value, after⟩, hquote, hvalue⟩ := hname
  obtain rfl : value = name := by simpa using hvalue
  exact Text.not_mem_of_cut?_singleton hquote

theorem quote_not_mem_of_mem_profileNames {r : Recipe} {source name : Text}
    (hname : name ∈ profileNames r source) : '"' ∉ name := by
  obtain ⟨line, -, hquoted⟩ := exists_line_of_mem_profileNames hname
  exact quote_not_mem_of_quotedAfter?_eq_some hquoted

theorem quote_not_mem_of_mem_systemNames {r : Recipe} {source name : Text}
    (hname : name ∈ systemNames r source) : '"' ∉ name := by
  obtain ⟨line, -, hquoted⟩ := exists_line_of_mem_systemNames hname
  exact quote_not_mem_of_quotedAfter?_eq_some hquoted

end EmulationBindings.Table
