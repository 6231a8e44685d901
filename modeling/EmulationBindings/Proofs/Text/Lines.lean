import EmulationBindings.Text.Lines
import Mathlib.Data.List.DropRight

/-!
# Lines and line feeds

A line of a text has no line feed in it, and a line feed shows where such a line ends whatever
comes after it.  What does not see a carriage return at the end of a line sees only what stands
before all carriage returns there.
-/

namespace EmulationBindings.Text

theorem not_mem_of_mem_splitOn {c : Char} {t piece : Text}
    (hpiece : piece ∈ t.splitOn c) : c ∉ piece := by
  induction t generalizing piece with
  | nil =>
      simp only [List.splitOn_nil, List.mem_singleton] at hpiece
      simp [hpiece]
  | cons x t ih =>
      rw [List.splitOn_cons_eq_if_modifyHead] at hpiece
      by_cases hx : x = c
      · simp only [hx, beq_self_eq_true, if_true, List.mem_cons] at hpiece
        rcases hpiece with rfl | hpiece
        · simp
        · exact ih hpiece
      · simp only [beq_iff_eq, hx, if_false] at hpiece
        cases hsplit : t.splitOn c with
        | nil => exact absurd hsplit (List.splitOn_ne_nil c t)
        | cons first rest =>
            rw [hsplit] at hpiece ih
            simp only [List.modifyHead_cons, List.mem_cons] at hpiece
            rcases hpiece with rfl | hpiece
            · have hfirst := ih List.mem_cons_self
              simp [hfirst, Ne.symm hx]
            · exact ih (List.mem_cons_of_mem first hpiece)

theorem dropReturn_subset (line : Text) : dropReturn line ⊆ line := by
  unfold dropReturn
  split
  · exact List.dropLast_subset line
  · exact List.Subset.refl line

theorem exists_subset_of_mem_dropReturns {pieces : List Text} {line : Text}
    (hline : line ∈ dropReturns pieces) :
    ∃ piece ∈ pieces, line ⊆ piece := by
  induction pieces with
  | nil => simp [dropReturns] at hline
  | cons piece rest ih =>
      cases rest with
      | nil =>
          simp only [dropReturns, List.mem_singleton] at hline
          exact ⟨piece, List.mem_cons_self, by simp [hline]⟩
      | cons next rest =>
          simp only [dropReturns, List.mem_cons] at hline
          rcases hline with rfl | hline
          · exact ⟨piece, List.mem_cons_self, dropReturn_subset piece⟩
          · obtain ⟨other, hother, hsub⟩ := ih (by simpa using hline)
            exact ⟨other, List.mem_cons_of_mem piece hother, hsub⟩

theorem newline_not_mem_of_mem_lines {t line : Text} (hline : line ∈ lines t) :
    '\n' ∉ line := by
  obtain ⟨piece, hpiece, hsub⟩ := exists_subset_of_mem_dropReturns hline
  intro hmem
  exact not_mem_of_mem_splitOn hpiece (hsub hmem)

/-- What does not see the carriage return of a line ending sees the pieces between the line
feeds. -/
theorem filterMap_lines {α : Type} {f : Text → Option α}
    (hf : ∀ piece, f (dropReturn piece) = f piece) (t : Text) :
    (lines t).filterMap f = (t.splitOn '\n').filterMap f := by
  unfold lines
  induction t.splitOn '\n' with
  | nil => rfl
  | cons piece rest ih =>
      cases rest with
      | nil => rfl
      | cons next rest => simp only [dropReturns, List.filterMap_cons, hf, ih]

theorem map_lines {α : Type} {f : Text → α} (hf : ∀ piece, f (dropReturn piece) = f piece)
    (t : Text) : (lines t).map f = (t.splitOn '\n').map f := by
  rw [← List.filterMap_eq_map]
  exact filterMap_lines (f := some ∘ f) (fun piece => congrArg some (hf piece)) t

theorem dropReturns_eq_self {pieces : List Text}
    (hpieces : ∀ piece ∈ pieces, piece.getLast? ≠ some '\r') : dropReturns pieces = pieces := by
  induction pieces with
  | nil => rfl
  | cons piece rest ih =>
      have hpiece : dropReturn piece = piece := if_neg (hpieces piece List.mem_cons_self)
      have hrest := ih fun other hother => hpieces other (List.mem_cons_of_mem piece hother)
      cases rest with
      | nil => rfl
      | cons next rest => rw [dropReturns, hpiece, hrest]

/-- Lines that are put together with line feeds are the lines of what they make. -/
theorem lines_intercalate {ls : List Text} (hne : ls ≠ [])
    (hplain : ∀ line ∈ ls, '\n' ∉ line ∧ line.getLast? ≠ some '\r') :
    lines (List.intercalate ['\n'] ls) = ls := by
  have hpieces : (List.intercalate ['\n'] ls).splitOn '\n' = ls :=
    List.splitOn_intercalate '\n' (fun line hline => (hplain line hline).1) hne
  rw [lines, hpieces]
  exact dropReturns_eq_self fun line hline => (hplain line hline).2

theorem append_newline_inj {line line' rest rest' : Text}
    (hline : '\n' ∉ line) (hline' : '\n' ∉ line')
    (heq : line ++ '\n' :: rest = line' ++ '\n' :: rest') :
    line = line' ∧ rest = rest' := by
  have hsplit := congrArg (List.splitOn '\n') heq
  rw [List.splitOn_append_cons_self_of_not_mem hline,
    List.splitOn_append_cons_self_of_not_mem hline'] at hsplit
  obtain rfl : line = line' := (List.cons.inj hsplit).1
  have htail := List.append_cancel_left heq
  exact ⟨rfl, (List.cons.inj htail).2⟩

/-! ## Carriage returns at the end of a line -/

/-- The line up to the carriage returns at its end. -/
def trimReturns (line : Text) : Text := line.rdropWhile (· = '\r')

theorem trimReturns_append_return (line : Text) :
    trimReturns (line ++ ['\r']) = trimReturns line :=
  List.rdropWhile_concat_pos _ _ _ (by simp)

theorem apply_trimReturns {α : Type} {f : Text → α}
    (hf : ∀ line, f (line ++ ['\r']) = f line) (line : Text) :
    f (trimReturns line) = f line := by
  induction line using List.reverseRecOn with
  | nil => rfl
  | append_singleton start c ih =>
      by_cases hc : c = '\r'
      · subst hc
        rw [trimReturns_append_return, ih, hf]
      · rw [trimReturns, List.rdropWhile_concat_neg _ _ _ (by simpa using hc)]

theorem apply_dropReturn {α : Type} {f : Text → α}
    (hf : ∀ line, f (line ++ ['\r']) = f line) (line : Text) :
    f (dropReturn line) = f line := by
  unfold dropReturn
  split
  · next hlast =>
    obtain ⟨start, rfl⟩ := List.getLast?_eq_some_iff.mp hlast
    rw [List.dropLast_concat, hf]
  · rfl

/-- However many carriage returns its line endings have, a text has the same lines but for these. -/
theorem map_trimReturns_lines (t : Text) :
    (lines t).map trimReturns = (t.splitOn '\n').map trimReturns :=
  map_lines (apply_dropReturn trimReturns_append_return) t

end EmulationBindings.Text
