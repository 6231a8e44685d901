import EmulationBindings.Text.Basic
import Mathlib.Algebra.Ring.Parity
import Mathlib.Data.List.DropRight

/-!
# String literals

How TypeScript and Rust read a string literal: a backslash takes the next character with it, and
the literal ends at the first quote that no backslash takes.  A name that is put between two quotes
as it stands is therefore one whole literal exactly when an odd number of backslashes stands before
every quote in it, and an even number at its end.
-/

namespace EmulationBindings.Document

/-- Reads a literal from behind its opening quote: what it encloses, and what follows its closing
quote.  There is no literal when the text ends first. -/
def readLiteral (mark : Char) : Text → Option (Text × Text)
  | [] => none
  | '\\' :: taken :: t =>
    (readLiteral mark t).map fun (inside, rest) => ('\\' :: taken :: inside, rest)
  | c :: t =>
    if c = mark then some ([], t)
    else (readLiteral mark t).map fun (inside, rest) => (c :: inside, rest)

/-- How many backslashes stand at the end of a text. -/
def closingBackslashes (t : Text) : ℕ := (t.rtakeWhile (· = '\\')).length

/-- Between two of these quotes, the text is the whole of a literal. -/
structure Enclosable (mark : Char) (t : Text) : Prop where
  quotesTaken : ∀ before after, t = before ++ mark :: after → Odd (closingBackslashes before)
  endFree : Even (closingBackslashes t)

/-! ## Counting backslashes from the front -/

theorem closingBackslashes_cons_of_ne {c : Char} (hc : c ≠ '\\') (t : Text) :
    closingBackslashes (c :: t) = closingBackslashes t := by
  unfold closingBackslashes List.rtakeWhile
  rw [List.reverse_cons, List.takeWhile_append]
  split
  · next hall => simp [hc, (List.takeWhile_prefix _).eq_of_length hall]
  · rfl

theorem even_closingBackslashes_pair (c : Char) (t : Text) :
    Even (closingBackslashes ('\\' :: c :: t)) ↔ Even (closingBackslashes t) := by
  unfold closingBackslashes List.rtakeWhile
  have hsplit : ('\\' :: c :: t).reverse = t.reverse ++ [c, '\\'] := by simp
  rw [hsplit, List.takeWhile_append]
  split
  · next hall =>
    -- The text holds backslashes only, so those in front of it count as well.
    rw [(List.takeWhile_prefix _).eq_of_length hall]
    by_cases hc : c = '\\'
    · simp [hc, Nat.even_add]
    · simp [hc]
  · rfl

theorem odd_closingBackslashes_pair (c : Char) (t : Text) :
    Odd (closingBackslashes ('\\' :: c :: t)) ↔ Odd (closingBackslashes t) := by
  rw [← Nat.not_even_iff_odd, ← Nat.not_even_iff_odd, even_closingBackslashes_pair]

/-! ## Enclosable texts, one step at a time -/

variable {mark : Char}

theorem enclosable_nil : Enclosable mark [] where
  quotesTaken := by simp
  endFree := by simp [closingBackslashes, List.rtakeWhile]

theorem enclosable_pair_iff (hmark : mark ≠ '\\') {c : Char} {t : Text} :
    Enclosable mark ('\\' :: c :: t) ↔ Enclosable mark t := by
  constructor
  · rintro ⟨htaken, hend⟩
    refine ⟨fun before after ht => ?_, (even_closingBackslashes_pair c t).mp hend⟩
    have hodd := htaken ('\\' :: c :: before) after (by simp [ht])
    exact (odd_closingBackslashes_pair c before).mp hodd
  · rintro ⟨htaken, hend⟩
    refine ⟨fun before after ht => ?_, (even_closingBackslashes_pair c t).mpr hend⟩
    cases before with
    | nil => exact absurd (List.cons.inj ht).1.symm hmark
    | cons b rest =>
        simp only [List.cons_append, List.cons.injEq] at ht
        obtain ⟨rfl, ht⟩ := ht
        cases rest with
        | nil => simp [closingBackslashes, List.rtakeWhile]
        | cons b' rest =>
            simp only [List.cons_append, List.cons.injEq] at ht
            obtain ⟨rfl, ht⟩ := ht
            exact (odd_closingBackslashes_pair c rest).mpr (htaken rest after ht)

theorem not_enclosable_backslash : ¬ Enclosable mark ['\\'] := by
  intro h
  have hend := h.endFree
  simp [closingBackslashes, List.rtakeWhile] at hend

theorem not_enclosable_mark (t : Text) : ¬ Enclosable mark (mark :: t) := by
  intro h
  have hodd := h.quotesTaken [] t rfl
  simp [closingBackslashes, List.rtakeWhile] at hodd

theorem enclosable_cons_iff {c : Char} (hc : c ≠ '\\') (hcm : c ≠ mark) {t : Text} :
    Enclosable mark (c :: t) ↔ Enclosable mark t := by
  constructor
  · rintro ⟨htaken, hend⟩
    refine ⟨fun before after ht => ?_, ?_⟩
    · have hodd := htaken (c :: before) after (by simp [ht])
      rwa [closingBackslashes_cons_of_ne hc] at hodd
    · rwa [closingBackslashes_cons_of_ne hc] at hend
  · rintro ⟨htaken, hend⟩
    refine ⟨fun before after ht => ?_, ?_⟩
    · cases before with
      | nil => exact absurd (List.cons.inj ht).1 hcm
      | cons b rest =>
          simp only [List.cons_append, List.cons.injEq] at ht
          obtain ⟨rfl, ht⟩ := ht
          rw [closingBackslashes_cons_of_ne hc]
          exact htaken rest after ht
    · rwa [closingBackslashes_cons_of_ne hc]

/-- A text without the quote is enclosable as soon as its end is free. -/
theorem enclosable_iff_of_not_mem {t : Text} (ht : mark ∉ t) :
    Enclosable mark t ↔ Even (closingBackslashes t) := by
  refine ⟨fun h => h.endFree, fun hend => ⟨fun before after hsplit => ?_, hend⟩⟩
  rw [hsplit] at ht
  simp at ht

/-! ## Reading what is enclosed -/

theorem map_pair_eq_some_iff {α : Type} {f : α → α} (hf : Function.Injective f)
    {x : Option (α × Text)} {a : α} {rest : Text} :
    x.map (fun (inside, rest) => (f inside, rest)) = some (f a, rest) ↔ x = some (a, rest) := by
  cases x with
  | none => simp
  | some found => simp [Prod.ext_iff, hf.eq_iff]

theorem readLiteral_enclosed_iff (hmark : mark ≠ '\\') {t r : Text} :
    readLiteral mark (t ++ mark :: r) = some (t, r) ↔ Enclosable mark t := by
  induction t using readLiteral.induct mark with
  | case1 => simp [readLiteral, enclosable_nil, hmark]
  | case2 taken t ih =>
      rw [enclosable_pair_iff hmark, ← ih]
      have hinj : Function.Injective fun inside : Text => '\\' :: taken :: inside := by
        intro a b hab
        simpa using hab
      exact map_pair_eq_some_iff hinj
  | case3 t hpair =>
      have hread : readLiteral mark (mark :: t ++ mark :: r) =
          some ([], t ++ mark :: r) := by
        rw [List.cons_append, readLiteral, if_pos rfl]
        exact fun _ _ hbackslash => absurd hbackslash hmark
      rw [hread]
      simp [not_enclosable_mark]
  | case4 c t hpair hc ih =>
      by_cases hbackslash : c = '\\'
      · -- The only backslash that begins no pair is the last character.
        obtain rfl : t = [] := by
          cases t with
          | nil => rfl
          | cons taken t => exact absurd rfl (hpair taken t hbackslash)
        subst hbackslash
        have hread : readLiteral mark (['\\'] ++ mark :: r) ≠ some (['\\'], r) := by
          change (readLiteral mark r).map _ ≠ _
          cases readLiteral mark r <;> simp
        exact iff_of_false hread not_enclosable_backslash
      · have hread : readLiteral mark (c :: t ++ mark :: r) =
            (readLiteral mark (t ++ mark :: r)).map
              fun (inside, rest) => (c :: inside, rest) := by
          rw [List.cons_append, readLiteral, if_neg hc]
          exact fun _ _ h => absurd h hbackslash
        rw [hread, enclosable_cons_iff hbackslash hc, ← ih]
        exact map_pair_eq_some_iff List.cons_injective

end EmulationBindings.Document
