/-!
# Looking up in lists of pairs

Entries can be taken out by their keys.  A key that stays is looked up as before.
-/

namespace EmulationBindings

theorem lookup_filter_of_kept {α β : Type} [BEq α] [LawfulBEq α] (kept : α → Bool)
    (entries : List (α × β)) {key : α} (hkey : kept key = true) :
    (entries.filter fun e => kept e.1).lookup key = entries.lookup key := by
  induction entries with
  | nil => rfl
  | cons e rest ih =>
    by_cases he : kept e.1 = true
    · rw [List.filter_cons_of_pos (by simp [he]), List.lookup_cons, List.lookup_cons, ih]
    · have hne : (key == e.1) = false := by
        rw [beq_eq_false_iff_ne]
        rintro rfl
        exact he hkey
      rw [List.filter_cons_of_neg (by simp [he]), List.lookup_cons, hne, ih]

end EmulationBindings
