import EmulationBindings.Text.Basic

/-!
# Replacing one text by another

Replacing goes from left to right: the first place is found, and it goes on behind it.  A text that
takes the place of another is not looked at again, so what it makes with the text around it is not
replaced.
-/

namespace EmulationBindings.Text

/-- Puts `new` in every place of `old`.  An empty `old` has no places. -/
def replace (old new t : Text) : Text :=
  match cut? old t with
  | none => t
  | some (before, rest) =>
    if rest.length < t.length then before ++ new ++ replace old new rest else t
termination_by t.length

theorem replace_of_cut?_eq_none {old t : Text} (hcut : cut? old t = none) (new : Text) :
    replace old new t = t := by
  rw [replace, hcut]

theorem replace_of_not_mem {old t : Text} {c : Char} (hold : c ∈ old) (ht : c ∉ t) (new : Text) :
    replace old new t = t := by
  refine replace_of_cut?_eq_none (cut?_eq_none_iff.mpr fun before rest hoccurs => ht ?_) new
  simp [hoccurs, hold]

theorem replace_of_cut?_eq_some {old t before rest : Text} (hold : old ≠ [])
    (hcut : cut? old t = some (before, rest)) (new : Text) :
    replace old new t = before ++ new ++ replace old new rest := by
  have hshorter : rest.length < t.length := by
    have hlength := congrArg List.length (eq_of_cut?_eq_some hcut)
    have hpos := List.length_pos_iff.mpr hold
    simp only [List.length_append] at hlength
    omega
  rw [replace, hcut]
  exact if_pos hshorter

theorem replace_append {old : Text} (hold : old ≠ []) (new t : Text) :
    replace old new (old ++ t) = new ++ replace old new t := by
  have hcut : cut? old (old ++ t) = some ([], t) := by
    have hafter : after? old (old ++ t) = some t := after?_eq_some_iff.mpr rfl
    obtain ⟨c, more, rfl⟩ := List.exists_cons_of_ne_nil hold
    rw [List.cons_append] at hafter ⊢
    rw [cut?, hafter]
  exact replace_of_cut?_eq_some hold hcut new

theorem replace_cons {old t : Text} {c : Char} (hnot : after? old (c :: t) = none) (new : Text) :
    replace old new (c :: t) = c :: replace old new t := by
  have hold : old ≠ [] := by
    rintro rfl
    simp [after?] at hnot
  cases hrest : cut? old t with
  | none =>
      have hcut : cut? old (c :: t) = none := by
        rw [cut?, hnot, hrest]
        rfl
      rw [replace_of_cut?_eq_none hcut, replace_of_cut?_eq_none hrest]
  | some found =>
      obtain ⟨before, rest⟩ := found
      have hcut : cut? old (c :: t) = some (c :: before, rest) := by
        rw [cut?, hnot, hrest]
        rfl
      rw [replace_of_cut?_eq_some hold hcut, replace_of_cut?_eq_some hold hrest]
      simp

theorem replace_nil {old : Text} (hold : old ≠ []) (new : Text) : replace old new [] = [] := by
  obtain ⟨c, more, rfl⟩ := List.exists_cons_of_ne_nil hold
  exact replace_of_cut?_eq_none rfl new

theorem replace_singleton (a : Char) (new t : Text) :
    replace [a] new t = t.flatMap fun c => if c = a then new else [c] := by
  induction t with
  | nil => exact replace_nil (List.cons_ne_nil a []) new
  | cons c t ih =>
      rw [List.flatMap_cons, ← ih]
      by_cases hc : c = a
      · rw [if_pos hc, hc]
        exact replace_append (List.cons_ne_nil a []) new t
      · rw [if_neg hc, replace_cons (by simp [after?, Ne.symm hc])]
        rfl

end EmulationBindings.Text
