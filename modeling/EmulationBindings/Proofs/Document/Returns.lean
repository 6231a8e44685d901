import EmulationBindings.Proofs.Extraction

/-!
# Carriage returns in documents

A document is put together from fixed texts, the names that the recipe gives its types and
constants, and the names in the table.  With the standard recipe only the last can bring a carriage
return into it, and both documents hold all of them, so both have one or neither has.
-/

namespace EmulationBindings.Document

/-- One of these texts has a carriage return in it. -/
def HasReturn (texts : List Text) : Prop := ∃ t ∈ texts, '\r' ∈ t

instance (texts : List Text) : Decidable (HasReturn texts) :=
  inferInstanceAs (Decidable (∃ t ∈ texts, '\r' ∈ t))

@[simp] theorem hasReturn_nil : ¬ HasReturn [] := by
  simp [HasReturn]

@[simp] theorem hasReturn_cons {t : Text} {rest : List Text} :
    HasReturn (t :: rest) ↔ '\r' ∈ t ∨ HasReturn rest := by
  simp [HasReturn]

@[simp] theorem hasReturn_append {texts more : List Text} :
    HasReturn (texts ++ more) ↔ HasReturn texts ∨ HasReturn more := by
  simp only [HasReturn, List.mem_append, or_and_right, exists_or]

theorem return_mem_ofLines_iff {ls : List Text} : '\r' ∈ ofLines ls ↔ HasReturn ls := by
  unfold ofLines
  induction ls with
  | nil => simp
  | cons line rest ih =>
      cases rest with
      | nil => simp
      | cons next rest =>
          rw [List.intercalate_cons_cons, hasReturn_cons, ← ih]
          simp

theorem return_mem_enclosed_iff {opening name closing : Text} (hopening : '\r' ∉ opening)
    (hclosing : '\r' ∉ closing) :
    '\r' ∈ opening ++ name ++ closing ↔ '\r' ∈ name := by
  simp [hopening, hclosing]

theorem hasReturn_unionMembers_iff {names : List Text} :
    HasReturn (unionMembers names) ↔ HasReturn names := by
  induction names with
  | nil => simp [unionMembers]
  | cons name rest ih =>
      have hopening : '\r' ∉ ("  | '" : Text) := by decide
      cases rest with
      | nil =>
          have hclosing : '\r' ∉ ("';" : Text) := by decide
          rw [unionMembers, hasReturn_cons, hasReturn_cons,
            return_mem_enclosed_iff hopening hclosing]
      | cons next rest =>
          have hclosing : '\r' ∉ ("'" : Text) := by decide
          rw [unionMembers, hasReturn_cons, hasReturn_cons, ih,
            return_mem_enclosed_iff hopening hclosing]

theorem hasReturn_map_arrayItem_iff {names : List Text} :
    HasReturn (names.map arrayItem) ↔ HasReturn names := by
  induction names with
  | nil => simp
  | cons name rest ih =>
      have hopening : '\r' ∉ ("    \"" : Text) := by decide
      have hclosing : '\r' ∉ ("\"," : Text) := by decide
      have hitem : '\r' ∈ arrayItem name ↔ '\r' ∈ name :=
        return_mem_enclosed_iff hopening hclosing
      rw [List.map_cons, hasReturn_cons, hasReturn_cons, ih, hitem]

variable {profiles systems : List Text} {t : Text}

theorem return_mem_typeScript_iff (ht : typeScript .standard profiles systems = .ok t) :
    '\r' ∈ t ↔ HasReturn (profiles ++ systems) := by
  obtain ⟨-, -, rfl⟩ := typeScript_eq_ok_iff.mp ht
  have hhead : '\r' ∉ typeScriptHead := by decide
  have hmiddle : '\r' ∉ typeScriptMiddle := by decide
  have hprofiles : '\r' ∉ unionOpening Recipe.standard.profileUnion := by decide
  have hsystems : '\r' ∉ unionOpening Recipe.standard.systemUnion := by decide
  simp only [List.mem_append, return_mem_ofLines_iff, hasReturn_cons, hasReturn_unionMembers_iff,
    hasReturn_append, hhead, hmiddle, hprofiles, hsystems, false_or, or_false]

theorem return_mem_rust_iff (ht : rust .standard profiles systems = .ok t) :
    '\r' ∈ t ↔ HasReturn (profiles ++ systems) := by
  obtain ⟨-, -, rfl⟩ := rust_eq_ok_iff.mp ht
  have hhead : '\r' ∉ rustHead := by decide
  have hbetween : '\r' ∉ ("\n" : Text) := by decide
  have hprofiles : '\r' ∉ arrayOpening Recipe.standard.profileArray := by decide
  have hsystems : '\r' ∉ arrayOpening Recipe.standard.systemArray := by decide
  have hclosing : '\r' ∉ arrayClosing := by decide
  simp only [List.cons_append, List.mem_append, return_mem_ofLines_iff, hasReturn_cons,
    hasReturn_map_arrayItem_iff, hasReturn_append, hasReturn_nil, hhead, hbetween, hprofiles,
    hsystems, hclosing, false_or, or_false]

end EmulationBindings.Document
