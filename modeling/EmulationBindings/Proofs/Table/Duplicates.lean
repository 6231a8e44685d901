import EmulationBindings.Proofs.Extraction
import Mathlib.Data.Char
import Mathlib.Data.List.Lex
import Mathlib.Data.List.Sort

/-!
# Names that a table holds twice

The repeated names of a list are put in their places one after the other, which makes an ascending
list of them.  An ascending list is known by its members, and these do not depend on the order of
the names.  The gate tells of them in one warning, when there are any, and lets every list with a
name in it through as it is.
-/

namespace EmulationBindings

/-- The characters as numbers, by which texts are compared. -/
def Text.codePoints (t : Text) : List ℕ := t.map Char.toNat

theorem Text.codePoints_lt_codePoints_iff {t u : Text} : t.codePoints < u.codePoints ↔ t < u := by
  unfold codePoints
  induction t generalizing u with
  | nil => cases u <;> simp
  | cons c t ih =>
      cases u with
      | nil => simp
      | cons d u =>
          rw [List.map_cons, List.map_cons, List.cons_lt_cons_iff, List.cons_lt_cons_iff, ih,
            Char.toNat_inj]
          exact Iff.rfl

namespace Table

/-! ## Putting names in their places -/

theorem mem_insertName_iff {name other : Text} {ns : List Text} :
    name ∈ insertName other ns ↔ name = other ∨ name ∈ ns := by
  induction ns with
  | nil => simp [insertName]
  | cons n rest ih =>
      unfold insertName
      split
      · next hsame =>
        subst hsame
        simp
      · split
        · simp
        · rw [List.mem_cons, ih, List.mem_cons, or_left_comm]

theorem sortedLT_insertName {name : Text} {ns : List Text} (hns : ns.SortedLT) :
    (insertName name ns).SortedLT := by
  rw [List.sortedLT_iff_pairwise] at hns ⊢
  induction ns with
  | nil => simp [insertName]
  | cons n rest ih =>
      obtain ⟨hhead, hrest⟩ := List.pairwise_cons.mp hns
      unfold insertName
      split
      · exact hns
      · next hne =>
        split
        · next hlt =>
          refine List.pairwise_cons.mpr ⟨fun other hother => ?_, hns⟩
          rcases List.mem_cons.mp hother with rfl | hother
          · exact hlt
          · exact lt_trans hlt (hhead other hother)
        · next hnot =>
          have hgt : n < name := lt_of_le_of_ne (le_of_not_gt hnot) (Ne.symm hne)
          refine List.pairwise_cons.mpr ⟨fun other hother => ?_, ih hrest⟩
          rcases mem_insertName_iff.mp hother with rfl | hother
          · exact hgt
          · exact hhead other hother

theorem mem_foldr_insertName_iff {name : Text} {ns : List Text} :
    name ∈ ns.foldr insertName [] ↔ name ∈ ns := by
  induction ns with
  | nil => rfl
  | cons n rest ih => rw [List.foldr_cons, mem_insertName_iff, ih, List.mem_cons]

theorem sortedLT_foldr_insertName (ns : List Text) : (ns.foldr insertName []).SortedLT := by
  induction ns with
  | nil => simp [List.sortedLT_iff_pairwise]
  | cons n rest ih => exact sortedLT_insertName ih

/-! ## Repeated names -/

/-- Every name that `names` holds more than once stands in `repeated`, once and in ascending
order. -/
structure ListsRepeated (names repeated : List Text) : Prop where
  mem_iff : ∀ name, name ∈ repeated ↔ 2 ≤ names.count name
  ascending : (repeated.map Text.codePoints).SortedLT

theorem sortedLT_map_codePoints_iff {ns : List Text} :
    (ns.map Text.codePoints).SortedLT ↔ ns.SortedLT := by
  simp only [List.sortedLT_iff_pairwise, List.pairwise_map, Text.codePoints_lt_codePoints_iff]

theorem listsRepeated_duplicates (names : List Text) :
    ListsRepeated names (duplicates names) := by
  refine ⟨fun name => ?_, sortedLT_map_codePoints_iff.mpr (sortedLT_foldr_insertName _)⟩
  rw [duplicates, mem_foldr_insertName_iff, List.mem_filter, decide_eq_true_iff,
    ← Nat.succ_le_iff]
  refine and_iff_right_of_imp fun htwice => List.count_pos_iff.mp ?_
  exact Nat.lt_of_lt_of_le Nat.zero_lt_two htwice

/-- Only one list can be this one, whatever the order of the names. -/
theorem ListsRepeated.eq_of_perm {names names' repeated repeated' : List Text}
    (hlists : ListsRepeated names repeated) (hlists' : ListsRepeated names' repeated')
    (hperm : names.Perm names') : repeated = repeated' := by
  have hsorted := sortedLT_map_codePoints_iff.mp hlists.ascending
  have hsorted' := sortedLT_map_codePoints_iff.mp hlists'.ascending
  refine hsorted.eq_of_mem_iff hsorted' fun name => ?_
  rw [hlists.mem_iff, hlists'.mem_iff, hperm.count_eq]

theorem duplicates_eq_nil_iff {names : List Text} :
    duplicates names = [] ↔ ∀ name, names.count name < 2 := by
  rw [List.eq_nil_iff_forall_not_mem]
  exact forall_congr' fun name => by
    rw [(listsRepeated_duplicates names).mem_iff, Nat.not_le]

end Table

namespace Tables

open EmulationBindings.Action

/-- A list without names is turned down.  Any other is let through as it is, with one warning when
it holds some name more than once: the warning lists these names, each once and ascending, and is
the same for all orders of the list. -/
theorem gate_warns_of_repeated (kind dependency : Text) (names : List Text) (w : World) :
    (names = [] → ∃ f, (gate kind dependency names).result w = (.error (.failed f), w) ∧
      f.stage = .emptyExtraction ∧
      f.message = "No " ++ kind ++ " found in " ++ dependency ++ " source") ∧
    (names ≠ [] → ∃ noted,
      (gate kind dependency names).result w =
        (.ok names, { w with journal := w.journal ++ noted }) ∧
      ((∀ name, names.count name < 2) → noted = []) ∧
      ((∃ name, 2 ≤ names.count name) → ∃ warning repeated, noted = [warning] ∧
        warning = .duplicated kind dependency repeated ∧ warning.severity = .warning ∧
        warning.message = "Duplicate " ++ kind ++ " in " ++ dependency ++ " source: " ++
          Text.commas repeated ∧
        Table.ListsRepeated names repeated) ∧
      ∀ names', names'.Perm names → (gate kind dependency names').result w =
        (.ok names', { w with journal := w.journal ++ noted })) := by
  constructor
  · rintro rfl
    exact ⟨.noNames kind dependency, rfl, rfl, rfl⟩
  · intro hnames
    refine ⟨warnings kind dependency names, by rw [result_gate, if_neg hnames],
      fun honce => ?_, fun ⟨name, htwice⟩ => ?_, fun names' hperm => ?_⟩
    · rw [warnings, if_pos (Table.duplicates_eq_nil_iff.mpr honce)]
    · have hlists := Table.listsRepeated_duplicates names
      have hsome : Table.duplicates names ≠ [] :=
        List.ne_nil_of_mem ((hlists.mem_iff name).mpr htwice)
      exact ⟨_, _, if_neg hsome, rfl, rfl, rfl, hlists⟩
    · have hnames' : names' ≠ [] := by
        rintro rfl
        exact hnames hperm.symm.eq_nil
      have hsame := (Table.listsRepeated_duplicates names').eq_of_perm
        (Table.listsRepeated_duplicates names) hperm
      rw [result_gate, if_neg hnames', warnings, warnings, hsame]

/-- Two orders of a list in which three names are repeated, a list in which none is, and no names
at all. -/
theorem gate_warns_of_repeated_of_shuffled_names :
    let w : World := { disk := .empty }
    let names : List Text := ["b", "a", "b", "Z", "ab", "a", "Z", "b"]
    let shuffled : List Text := ["Z", "b", "Z", "a", "b", "ab", "b", "a"]
    let noted : List Event := [.duplicated "profiles" "table" ["Z", "a", "b"]]
    let once : List Text := ["b", "a"]
    (∃ f, (gate "profiles" "table" []).result w = (.error (.failed f), w) ∧
      f.stage = .emptyExtraction) ∧
    (names ≠ [] ∧ 2 ≤ names.count ("Z" : Text) ∧ shuffled.Perm names ∧
      (gate "profiles" "table" names).result w = (.ok names, { w with journal := noted }) ∧
      (gate "profiles" "table" shuffled).result w =
        (.ok shuffled, { w with journal := noted })) ∧
    once ≠ [] ∧ (∀ name, once.count name < 2) ∧
      (gate "profiles" "table" once).result w = (.ok once, w) := by
  intro w names shuffled noted once
  obtain ⟨f, hempty, hstage, -⟩ := (gate_warns_of_repeated "profiles" "table" [] w).1 rfl
  have hnames : names ≠ [] := by decide
  have htwice : 2 ≤ names.count ("Z" : Text) := by decide
  have hperm : shuffled.Perm names := by decide
  obtain ⟨events, hrun, -, hwarned, hshuffled⟩ :=
    (gate_warns_of_repeated "profiles" "table" names w).2 hnames
  obtain ⟨_, repeated, rfl, rfl, -, -, hlists⟩ := hwarned ⟨"Z", htwice⟩
  have hrepeated : repeated = ["Z", "a", "b"] :=
    (hlists.eq_of_perm (Table.listsRepeated_duplicates names) (.refl names)).trans (by decide)
  subst hrepeated
  have honce : once ≠ [] := by decide
  have hcount : ∀ name, once.count name < 2 := fun name =>
    Nat.lt_succ_of_le (List.nodup_iff_count_le_one.mp (by decide) name)
  obtain ⟨events', hrun', hquiet, -⟩ := (gate_warns_of_repeated "profiles" "table" once w).2 honce
  obtain rfl := hquiet hcount
  exact ⟨⟨f, hempty, hstage⟩, ⟨hnames, htwice, hperm, hrun, hshuffled shuffled hperm⟩, honce,
    hcount, hrun'⟩

end Tables

end EmulationBindings
