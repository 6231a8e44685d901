import EmulationBindings.Proofs.Text.Cut
import EmulationBindings.Proofs.Text.Lines
import EmulationBindings.Proofs.Text.Replace

/-!
# Splitting into lines

The lines of a text are all of it but for the line endings.  Put together with line feeds they are
the text with every pair of a carriage return and a line feed replaced by the line feed, so of many
carriage returns before a line feed one is dropped, and no other character moves.  A text that is
given pairs for its line feeds is split into the pieces that it had between them.
-/

namespace EmulationBindings.Text

/-- A text is one line without a line feed, or such a line and a text behind a line feed. -/
@[elab_as_elim]
theorem line_induction {motive : Text → Prop} (last : ∀ t, '\n' ∉ t → motive t)
    (next : ∀ piece rest, '\n' ∉ piece → motive rest → motive (piece ++ '\n' :: rest))
    (t : Text) : motive t := by
  by_cases hmem : '\n' ∈ t
  · obtain ⟨piece, rest, rfl, hpiece⟩ := List.eq_append_cons_of_mem hmem
    exact next piece rest hpiece (line_induction last next rest)
  · exact last t hmem
termination_by t.length
decreasing_by
  subst_vars
  simp only [List.length_append, List.length_cons]
  omega

/-! ## Line by line -/

section

variable {piece t : Text}

theorem lines_of_not_mem (ht : '\n' ∉ t) : lines t = [t] := by
  rw [lines, List.splitOn_eq_singleton ht]
  rfl

theorem lines_append_newline (hpiece : '\n' ∉ piece) (rest : Text) :
    lines (piece ++ '\n' :: rest) = dropReturn piece :: lines rest := by
  unfold lines
  rw [List.splitOn_append_cons_self_of_not_mem hpiece]
  cases hrest : rest.splitOn '\n' with
  | nil => exact absurd hrest (List.splitOn_ne_nil '\n' rest)
  | cons next more => rfl

theorem lines_ne_nil (t : Text) : lines t ≠ [] := by
  induction t using line_induction with
  | last t ht => simp [lines_of_not_mem ht]
  | next piece rest hpiece ih => simp [lines_append_newline hpiece]

theorem length_lines (t : Text) : (lines t).length = t.count '\n' + 1 := by
  induction t using line_induction with
  | last t ht => rw [lines_of_not_mem ht, List.count_eq_zero.mpr ht, List.length_singleton]
  | next piece rest hpiece ih =>
      rw [lines_append_newline hpiece, List.length_cons, ih, List.count_append,
        List.count_eq_zero.mpr hpiece, List.count_cons_self]
      omega

theorem dropReturn_append (start : Text) (hpiece : piece ≠ []) :
    dropReturn (start ++ piece) = start ++ dropReturn piece := by
  unfold dropReturn
  rw [List.getLast?_append_of_ne_nil start hpiece]
  split
  · rw [List.dropLast_append_of_ne_nil hpiece]
  · rfl

theorem dropReturn_append_return (piece : Text) : dropReturn (piece ++ ['\r']) = piece := by
  simp [dropReturn]

/-! ## Line endings of two characters -/

/-- Only the carriage return just before the line feed makes a pair with it. -/
theorem replace_pair_append_newline (hpiece : '\n' ∉ piece) (rest : Text) :
    replace ['\r', '\n'] ['\n'] (piece ++ '\n' :: rest) =
      dropReturn piece ++ '\n' :: replace ['\r', '\n'] ['\n'] rest := by
  induction piece with
  | nil => exact replace_cons (by simp [after?]) ['\n']
  | cons c piece ih =>
      simp only [List.mem_cons, not_or] at hpiece
      cases piece with
      | nil =>
          by_cases hc : c = '\r'
          · subst hc
            exact replace_append (List.cons_ne_nil '\r' ['\n']) ['\n'] rest
          · have hkept : dropReturn [c] = [c] := by simp [dropReturn, hc]
            have hnot : after? ['\r', '\n'] (c :: '\n' :: rest) = none := by
              simp [after?, Ne.symm hc]
            rw [hkept, List.singleton_append, replace_cons hnot]
            exact congrArg (c :: ·) (ih hpiece.2)
      | cons d piece =>
          have hd : d ≠ '\n' := by
            rintro rfl
            exact hpiece.2 List.mem_cons_self
          have hnot : after? ['\r', '\n'] (c :: d :: piece ++ '\n' :: rest) = none := by
            simp [after?, hd.symm]
          have hkept : dropReturn (c :: d :: piece) = c :: dropReturn (d :: piece) :=
            dropReturn_append [c] (List.cons_ne_nil d piece)
          rw [hkept]
          exact (replace_cons hnot ['\n']).trans (congrArg (c :: ·) (ih hpiece.2))

theorem intercalate_lines (t : Text) :
    List.intercalate ['\n'] (lines t) = replace ['\r', '\n'] ['\n'] t := by
  induction t using line_induction with
  | last t ht =>
      rw [lines_of_not_mem ht, List.intercalate_singleton, replace_of_not_mem (by simp) ht]
  | next piece rest hpiece ih =>
      rw [lines_append_newline hpiece, List.intercalate_cons_of_ne_nil (lines_ne_nil rest), ih,
        replace_pair_append_newline hpiece]
      simp

theorem lines_replace_newline (t : Text) :
    lines (replace ['\n'] ['\r', '\n'] t) = t.splitOn '\n' := by
  induction t using line_induction with
  | last t ht =>
      rw [replace_of_not_mem (by simp) ht, lines_of_not_mem ht, List.splitOn_eq_singleton ht]
  | next piece rest hpiece ih =>
      have hended : '\n' ∉ piece ++ ['\r'] := by simp [hpiece]
      have hcut := cut?_singleton_of_not_mem hpiece rest
      have hreplaced : replace ['\n'] ['\r', '\n'] (piece ++ '\n' :: rest) =
          (piece ++ ['\r']) ++ '\n' :: replace ['\n'] ['\r', '\n'] rest := by
        rw [replace_of_cut?_eq_some (List.cons_ne_nil '\n' []) hcut]
        simp
      rw [hreplaced, lines_append_newline hended, dropReturn_append_return, ih,
        List.splitOn_append_cons_self_of_not_mem hpiece]

end

/-! ## Characters that stay -/

theorem rtakeWhile_append_newline (piece rest : Text) :
    (piece ++ '\n' :: rest).rtakeWhile (· ≠ '\n') = rest.rtakeWhile (· ≠ '\n') := by
  induction rest using List.reverseRecOn with
  | nil => rw [List.rtakeWhile_concat_neg _ _ _ (by simp), List.rtakeWhile_nil]
  | append_singleton rest c ih =>
      rw [← List.cons_append, ← List.append_assoc, List.rtakeWhile_concat, List.rtakeWhile_concat,
        ih]

section

variable {c : Char}

theorem exists_first_line {start after : Text} (hstart : '\n' ∉ start) (hc : c ≠ '\n')
    (hending : c = '\r' → after.head? ≠ some '\n') :
    ∃ line ∈ (lines (start ++ c :: after))[0]?, start ++ [c] <+: line := by
  by_cases hafter : '\n' ∈ after
  · obtain ⟨more, rest, rfl, hmore⟩ := List.eq_append_cons_of_mem hafter
    have hpiece : '\n' ∉ start ++ [c] ++ more := by simp [hstart, hc.symm, hmore]
    have hsame : start ++ c :: (more ++ '\n' :: rest) =
        start ++ [c] ++ more ++ '\n' :: rest := by simp
    rw [hsame, lines_append_newline hpiece]
    refine ⟨dropReturn (start ++ [c] ++ more), rfl, ?_⟩
    -- Only when nothing stands behind it on its line could `c` be the one that is dropped.
    by_cases hmore : more = []
    · have hreturn : c ≠ '\r' := fun h => hending h (by simp [hmore])
      simp [hmore, dropReturn, hreturn]
    · rw [dropReturn_append (start ++ [c]) hmore]
      exact List.prefix_append _ _
  · have hwhole : '\n' ∉ start ++ c :: after := by simp [hstart, hc.symm, hafter]
    rw [lines_of_not_mem hwhole]
    exact ⟨start ++ c :: after, rfl, after, by simp⟩

/-- A character that is not part of a line ending is on the line that has as many lines before it as
the character has line feeds, behind all that the character had before it on its line. -/
theorem exists_line_of_not_ending {before after : Text} (hc : c ≠ '\n')
    (hending : c = '\r' → after.head? ≠ some '\n') :
    ∃ line ∈ (lines (before ++ c :: after))[before.count '\n']?,
      before.rtakeWhile (· ≠ '\n') ++ [c] <+: line := by
  induction before using line_induction with
  | last before hbefore =>
      have hstart : before.rtakeWhile (· ≠ '\n') = before :=
        List.rtakeWhile_eq_self_iff.mpr fun d hd => by
          simpa using ne_of_mem_of_not_mem hd hbefore
      rw [hstart, List.count_eq_zero.mpr hbefore]
      exact exists_first_line hbefore hc hending
  | next piece rest hpiece ih =>
      have hcount : (piece ++ '\n' :: rest).count '\n' = rest.count '\n' + 1 := by
        rw [List.count_append, List.count_eq_zero.mpr hpiece, List.count_cons_self, Nat.zero_add]
      rw [List.append_assoc, List.cons_append, lines_append_newline hpiece, hcount,
        rtakeWhile_append_newline, List.getElem?_cons_succ]
      exact ih

end

/-- A text has one line more than it has line feeds, and no line holds one.  Its lines make it again
with line feeds for its line endings, and all characters but those of the line endings stand in
their lines where they stood before. -/
theorem lines_keep_all_but_endings (t : Text) :
    (∀ line ∈ lines t, '\n' ∉ line) ∧
    (lines t).length = t.count '\n' + 1 ∧
    List.intercalate ['\n'] (lines t) = replace ['\r', '\n'] ['\n'] t ∧
    (∀ before c after, t = before ++ c :: after → c ≠ '\n' →
      (c = '\r' → after.head? ≠ some '\n') →
      ∃ line ∈ (lines t)[before.count '\n']?, before.rtakeWhile (· ≠ '\n') ++ [c] <+: line) ∧
    lines (replace ['\n'] ['\r', '\n'] t) = t.splitOn '\n' := by
  refine ⟨fun line hline => newline_not_mem_of_mem_lines hline, length_lines t,
    intercalate_lines t, ?_, lines_replace_newline t⟩
  rintro before c after rfl hc hending
  exact exists_line_of_not_ending hc hending

/-- Two carriage returns before a line feed, a line feed alone, one carriage return inside a line
and one at the very end, and characters at which other readers would split. -/
theorem lines_keep_all_but_endings_of_odd_returns :
    let t : Text := "a\r\r\n\u0085\rb\n\x0c\u2028\r"
    lines t = ["a\r".toList, "\u0085\rb".toList, "\x0c\u2028\r".toList] ∧
      '\n' ∉ "a\r".toList ∧
      (lines t).length = 3 ∧
      replace ['\r', '\n'] ['\n'] t = "a\r\n\u0085\rb\n\x0c\u2028\r".toList ∧
      (∃ line ∈ (lines t)[0]?, "a\r".toList <+: line) ∧
      lines (replace ['\n'] ['\r', '\n'] t) =
        ["a\r\r".toList, "\u0085\rb".toList, "\x0c\u2028\r".toList] := by
  intro t
  have hlines : lines t = ["a\r".toList, "\u0085\rb".toList, "\x0c\u2028\r".toList] := by
    decide +kernel
  obtain ⟨hnone, hlength, hjoin, hstays, hpieces⟩ := lines_keep_all_but_endings t
  have hstay := hstays "a".toList '\r' "\r\n\u0085\rb\n\x0c\u2028\r".toList
    (by decide +kernel) (by decide) (by decide +kernel)
  exact ⟨hlines, hnone _ (by simp [hlines]), hlength.trans (by decide +kernel),
    hjoin.symm.trans (by decide +kernel), hstay, hpieces.trans (by decide +kernel)⟩

end EmulationBindings.Text
