import EmulationBindings.Text.Basic

/-!
# Cutting at the first place

A text is cut at the first place where what is searched for occurs: no occurrence begins before it.
So a text cut at a single character has no such character in the part before the cut.
-/

namespace EmulationBindings.Text

theorem length_le_of_cut?_eq_some {m t before rest : Text} (hcut : cut? m t = some (before, rest))
    {b r : Text} (hoccurs : t = b ++ m ++ r) : before.length ≤ b.length := by
  induction t generalizing before b with
  | nil =>
      simp only [cut?, Option.map_eq_some_iff, Prod.mk.injEq] at hcut
      obtain ⟨_, -, rfl, -⟩ := hcut
      exact Nat.zero_le b.length
  | cons c t ih =>
      unfold cut? at hcut
      split at hcut
      · cases hcut
        exact Nat.zero_le b.length
      · next hnot =>
        simp only [Option.map_eq_some_iff, Prod.mk.injEq] at hcut
        obtain ⟨⟨before', rest'⟩, hcut, rfl, rfl⟩ := hcut
        cases b with
        | nil =>
            have hhere : after? m (c :: t) = some r :=
              after?_eq_some_iff.mpr (by simpa using hoccurs)
            rw [hnot] at hhere
            cases hhere
        | cons b' b =>
            simp only [List.cons_append, List.cons.injEq] at hoccurs
            have hle := ih hcut hoccurs.2
            simpa using hle

/-- Where the text is cut, all is still to come that comes after any occurrence. -/
theorem exists_cut?_of_occurs {m t before after : Text} (hoccurs : t = before ++ m ++ after) :
    ∃ b r, cut? m t = some (b, r) ∧ b.length ≤ before.length ∧ after <:+ r := by
  cases hcut : cut? m t with
  | none => exact absurd hoccurs (cut?_eq_none_iff.mp hcut before after)
  | some found =>
      obtain ⟨b, r⟩ := found
      have ht := eq_of_cut?_eq_some hcut
      have hle := length_le_of_cut?_eq_some hcut hoccurs
      have hlengths := congrArg List.length (ht.symm.trans hoccurs)
      simp only [List.length_append] at hlengths
      have hafter : after <:+ t := ⟨before ++ m, hoccurs.symm⟩
      have hrest : r <:+ t := ⟨b ++ m, ht.symm⟩
      exact ⟨b, r, rfl, hle, List.suffix_of_suffix_length_le hafter hrest (by omega)⟩

theorem not_mem_of_cut?_singleton {c : Char} {t before rest : Text}
    (hcut : cut? [c] t = some (before, rest)) : c ∉ before := by
  intro hmem
  obtain ⟨b, r, rfl⟩ := List.append_of_mem hmem
  have hoccurs : t = b ++ [c] ++ (r ++ c :: rest) := by
    have ht := eq_of_cut?_eq_some hcut
    simpa using ht
  have hle := length_le_of_cut?_eq_some hcut hoccurs
  rw [List.length_append, List.length_cons] at hle
  omega

/-! ## Characters that are not searched for -/

section

variable {c : Char}

/-- A character that `start` does not have stops the comparison, so what comes after it does not
matter. -/
theorem after?_append_cons {start : Text} (hc : c ∉ start) (t more : Text) :
    after? start (t ++ c :: more) = (after? start t).map (· ++ c :: more) := by
  induction start generalizing t with
  | nil => rfl
  | cons s start ih =>
      simp only [List.mem_cons, not_or] at hc
      cases t with
      | nil => simp [after?, Ne.symm hc.1]
      | cons d t =>
          simp only [List.cons_append, after?]
          split
          · exact ih hc.2 t
          · rfl

theorem cut?_append_singleton {m : Text} (hc : c ∉ m) (t : Text) :
    cut? m (t ++ [c]) = (cut? m t).map fun (before, rest) => (before, rest ++ [c]) := by
  induction t with
  | nil =>
      cases m with
      | nil => rfl
      | cons s m =>
          simp only [List.mem_cons, not_or] at hc
          simp [cut?, after?, Ne.symm hc.1]
  | cons d t ih =>
      have hafter := after?_append_cons hc (d :: t) []
      simp only [List.cons_append, cut?] at hafter ⊢
      rw [hafter, ih]
      cases after? m (d :: t) with
      | some rest => rfl
      | none => simp only [Option.map_none, Option.map_map]; rfl

theorem cut?_singleton_of_not_mem {before : Text} (hc : c ∉ before) (rest : Text) :
    cut? [c] (before ++ c :: rest) = some (before, rest) := by
  induction before with
  | nil => simp [cut?, after?]
  | cons d before ih =>
      simp only [List.mem_cons, not_or] at hc
      simp [cut?, after?, hc.1, ih hc.2]

end

end EmulationBindings.Text
