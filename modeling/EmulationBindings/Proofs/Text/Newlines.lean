import EmulationBindings.Proofs.Text.Replace
import EmulationBindings.Text.Lines

/-!
# Line endings read as line feeds

Reading every line ending as a line feed takes all carriage returns out of a text, and changes
nothing in a text that has none.  So what is read is the text itself exactly when the text has no
carriage return.  One pass over the text does what two replacements do one after the other, first
that of the pairs and then that of the carriage returns left over.
-/

namespace EmulationBindings.Text

theorem return_not_mem_unifyNewlines (t : Text) : '\r' ∉ unifyNewlines t := by
  induction t using unifyNewlines.induct with
  | case1 => simp [unifyNewlines]
  | case2 t ih => simp [unifyNewlines, ih]
  | case3 c t hpair ih =>
      rw [unifyNewlines]
      · by_cases hc : c = '\r'
        · simp [hc, ih]
        · simp [hc, ih, Ne.symm hc]
      · exact hpair

theorem unifyNewlines_of_not_mem {t : Text} (ht : '\r' ∉ t) : unifyNewlines t = t := by
  induction t with
  | nil => rfl
  | cons c t ih =>
      simp only [List.mem_cons, not_or] at ht
      rw [unifyNewlines]
      · rw [if_neg (Ne.symm ht.1), ih ht.2]
      · rintro _ rfl
        exact absurd rfl ht.1

theorem unifyNewlines_eq_self_iff {t : Text} : unifyNewlines t = t ↔ '\r' ∉ t := by
  constructor
  · intro hsame
    rw [← hsame]
    exact return_not_mem_unifyNewlines t
  · exact unifyNewlines_of_not_mem

theorem unifyNewlines_eq_replace (t : Text) :
    unifyNewlines t = replace ['\r'] ['\n'] (replace ['\r', '\n'] ['\n'] t) := by
  have hreturn (c : Char) (u : Text) : replace ['\r'] ['\n'] (c :: u) =
      (if c = '\r' then '\n' else c) :: replace ['\r'] ['\n'] u := by
    rw [replace_singleton, replace_singleton, List.flatMap_cons]
    split <;> rfl
  induction t using unifyNewlines.induct with
  | case1 =>
      rw [replace_nil (List.cons_ne_nil _ _), replace_nil (List.cons_ne_nil _ _)]
      rfl
  | case2 t ih =>
      have hpair := replace_append (List.cons_ne_nil '\r' ['\n']) ['\n'] t
      simp only [List.cons_append, List.nil_append] at hpair
      rw [hpair, hreturn, unifyNewlines, ih]
      rfl
  | case3 c t hpair ih =>
      have hnot : after? ['\r', '\n'] (c :: t) = none := by
        rw [Option.eq_none_iff_forall_ne_some]
        intro rest hrest
        obtain ⟨rfl, rfl⟩ := List.cons.inj (after?_eq_some_iff.mp hrest)
        exact hpair rest rfl rfl
      rw [replace_cons hnot, hreturn, unifyNewlines, ih]
      exact hpair

end EmulationBindings.Text
