import EmulationBindings.Json.Decoder
import Mathlib.Logic.Basic

/-!
# Integers that are too long

The decoder gives up on an integer only where the text has that many digits in a row, and more than
it may have.  For this every token has to leave an end of the text, whatever the text is.
-/

namespace EmulationBindings.Json

/-- These are digits that stand in a row in the text. -/
def DigitsIn (t ds : Text) : Prop := ds <:+: t ∧ ∀ c ∈ ds, c.isDigit = true

theorem eq_append_of_digits {t ds rest : Text} (hdigits : digits t = (ds, rest)) :
    t = ds ++ rest ∧ ∀ c ∈ ds, c.isDigit = true := by
  obtain ⟨rfl, rfl⟩ := Prod.mk.inj hdigits
  exact ⟨List.takeWhile_append_dropWhile.symm, List.all_eq_true.mp List.all_takeWhile⟩

theorem eq_append_of_wholePart? {t ds rest : Text} (hwhole : wholePart? t = some (ds, rest)) :
    t = ds ++ rest ∧ ds ≠ [] ∧ ∀ c ∈ ds, c.isDigit = true := by
  unfold wholePart? at hwhole
  split at hwhole
  · cases hwhole
    exact ⟨rfl, by simp, by simp⟩
  · split at hwhole
    · simp at hwhole
    · next hsome =>
      obtain ⟨ht, hdigit⟩ := eq_append_of_digits (Option.some.inj hwhole)
      refine ⟨ht, ?_, hdigit⟩
      rintro rfl
      exact hsome rest (Option.some.inj hwhole)

theorem suffix_tail_of_append {start rest t : Text} (hstart : start ≠ [])
    (hsuffix : start ++ rest <:+ t) : rest <:+ t.tail := by
  obtain ⟨c, u, rfl⟩ := List.exists_cons_of_ne_nil hstart
  have hrest : rest <:+ u ++ rest := List.suffix_append u rest
  obtain ⟨before, rfl⟩ := hsuffix
  cases before with
  | nil => exact hrest
  | cons b before => exact (hrest.trans (List.suffix_cons c _)).trans (List.suffix_append before _)

theorem suffix_of_fraction? {t ds rest : Text} (hfraction : fraction? t = some (ds, rest)) :
    rest <:+ t := by
  unfold fraction? at hfraction
  split at hfraction
  · next u =>
    split at hfraction
    · simp at hfraction
    · obtain ⟨rfl, -⟩ := eq_append_of_digits (Option.some.inj hfraction)
      exact (List.suffix_append ds rest).trans (List.suffix_cons '.' _)
  · simp at hfraction

theorem suffix_of_exponent? {t mark rest : Text} {power : Int}
    (hexponent : exponent? t = some (mark, power, rest)) : rest <:+ t := by
  unfold exponent? at hexponent
  split at hexponent
  · next e u =>
    split at hexponent
    · split at hexponent
      next sign body hbody =>
      have hu : body <:+ u := by
        split at hbody <;> obtain ⟨-, rfl⟩ := Prod.mk.inj hbody
        · exact List.suffix_cons '-' _
        · exact List.suffix_cons '+' _
        · exact List.suffix_refl u
      split at hexponent
      · simp at hexponent
      · next ds more _ hdigits =>
        obtain ⟨rfl, -⟩ := eq_append_of_digits hdigits
        obtain ⟨-, -, rfl⟩ : _ ∧ _ ∧ more = rest := by simpa using hexponent
        exact ((List.suffix_append ds more).trans hu).trans (List.suffix_cons e u)
    · simp at hexponent
  · simp at hexponent

theorem suffix_of_number? {t rest : Text} {value : Scalar} {width : Nat}
    (hnumber : number? t = some (value, width, rest)) :
    rest <:+ t.tail ∧ ∀ negative ds, value = .int negative ds → DigitsIn t ds := by
  simp only [number?, Option.bind_eq_bind, Option.bind_eq_some_iff, Option.pure_def,
    Option.some.injEq, Prod.mk.injEq] at hnumber
  obtain ⟨⟨whole, rest₁⟩, hwhole, hvalue, -, hrest⟩ := hnumber
  obtain ⟨hbody, hne, hdigit⟩ := eq_append_of_wholePart? hwhole
  have hsign : whole ++ rest₁ <:+ t := by
    rw [← hbody]
    split
    · exact List.suffix_cons '-' _
    · exact List.suffix_refl t
  have hrest₁ : rest₁ <:+ t.tail := suffix_tail_of_append hne hsign
  refine ⟨List.IsSuffix.trans ?_ hrest₁, fun negative ds hint => ?_⟩
  · cases hfraction : fraction? rest₁ with
    | none =>
        cases hexponent : exponent? rest₁ with
        | none =>
            simp only [hfraction, hexponent] at hrest
            exact hrest ▸ List.suffix_refl rest₁
        | some found =>
            simp only [hfraction, hexponent] at hrest
            exact hrest ▸ suffix_of_exponent? hexponent
    | some span =>
        have hspan : span.2 <:+ rest₁ := suffix_of_fraction? hfraction
        cases hexponent : exponent? span.2 with
        | none =>
            simp only [hfraction, hexponent] at hrest
            exact hrest ▸ hspan
        | some found =>
            simp only [hfraction, hexponent] at hrest
            exact hrest ▸ (suffix_of_exponent? hexponent).trans hspan
  · rw [hint] at hvalue
    rcases ite_eq_iff.mp hvalue with ⟨-, hvalue⟩ | ⟨-, hvalue⟩
    · obtain ⟨-, rfl⟩ := Scalar.int.inj hvalue
      exact ⟨(List.prefix_append whole rest₁).isInfix.trans hsign.isInfix, hdigit⟩
    · simp at hvalue

theorem exists_of_map_units {x : Except (Nat × Problem) (List Nat × Nat × Text)}
    {f : List Nat → List Nat} {units : List Nat} {after : Nat} {rest : Text}
    (hmap : (x.map fun (ns, r) => (f ns, r)) = .ok (units, after, rest)) :
    ∃ ns, f ns = units ∧ x = .ok (ns, after, rest) := by
  cases x with
  | error e => simp [Except.map] at hmap
  | ok found =>
      obtain ⟨hunits, hrest⟩ := Prod.mk.inj (Except.ok.inj hmap)
      exact ⟨found.1, hunits, congrArg Except.ok (Prod.ext rfl hrest)⟩

theorem suffix_of_stringUnits {opening pos after : Nat} {t rest : Text} {units : List Nat}
    (hunits : stringUnits opening pos t = .ok (units, after, rest)) : rest <:+ t := by
  fun_induction stringUnits opening pos t generalizing units with
  | case2 pos rest' =>
      obtain ⟨-, -, rfl⟩ : _ ∧ _ ∧ rest' = rest := by simpa using hunits
      exact List.suffix_cons '"' _
  | case4 pos a b c d next rest' n _ ih =>
      obtain ⟨ns, -, hmore⟩ := exists_of_map_units hunits
      exact (ih hmore).trans (List.suffix_append ['\\', 'u', a, b, c, d] _)
  | case7 pos e rest' _ _ c _ ih =>
      obtain ⟨ns, -, hmore⟩ := exists_of_map_units hunits
      exact (ih hmore).trans (List.suffix_append ['\\', e] _)
  | case10 pos c rest' _ _ _ _ _ _ ih =>
      obtain ⟨ns, -, hmore⟩ := exists_of_map_units hunits
      exact (ih hmore).trans (List.suffix_cons c _)
  | _ => simp at hunits

theorem suffix_of_word? {t rest : Text} {value : Scalar} {width : Nat}
    (hword : word? t = some (value, width, rest)) :
    rest <:+ t.tail ∧ ∀ negative ds, value ≠ .int negative ds := by
  obtain ⟨⟨word, v⟩, hmem, hfound⟩ := List.exists_of_findSome?_eq_some hword
  obtain ⟨u, hafter, hsame⟩ := Option.map_eq_some_iff.mp hfound
  obtain ⟨rfl, -, rfl⟩ : v = value ∧ _ ∧ u = rest := by simpa using hsame
  have hnone : ∀ w ∈ words, ∀ negative ds, w.2 ≠ .int negative ds := by simp [words]
  have hne : ∀ w ∈ words, w.1 ≠ [] := by simp [words]
  have ht : word ++ u <:+ t := Text.after?_eq_some_iff.mp hafter ▸ List.suffix_refl t
  exact ⟨suffix_tail_of_append (hne (word, v) hmem) ht, hnone (word, v) hmem⟩

/-- What a token leaves is an end of the text, and an integer is written in digits of the text. -/
theorem suffix_of_token {pos after : Nat} {c : Char} {t rest : Text} {tok : Token}
    (htoken : token pos c t = (tok, after, rest)) :
    rest <:+ t ∧ ∀ negative ds, tok = .scalar (.int negative ds) → DigitsIn (c :: t) ds := by
  have hpunctuation {sign : Token} (hsign : ∀ negative ds, sign ≠ .scalar (.int negative ds))
      (hsame : (sign, pos + 1, t) = (tok, after, rest)) :
      rest <:+ t ∧ ∀ negative ds, tok = .scalar (.int negative ds) →
        DigitsIn (c :: t) ds := by
    cases hsame
    exact ⟨List.suffix_refl t, fun negative ds hint => absurd hint (hsign negative ds)⟩
  unfold token at htoken
  split at htoken
  · exact hpunctuation (by simp) htoken
  · exact hpunctuation (by simp) htoken
  · exact hpunctuation (by simp) htoken
  · exact hpunctuation (by simp) htoken
  · exact hpunctuation (by simp) htoken
  · exact hpunctuation (by simp) htoken
  · split at htoken
    · next units _ _ hunits =>
      cases htoken
      refine ⟨suffix_of_stringUnits hunits, fun negative ds hint => ?_⟩
      unfold Scalar.ofUnits at hint
      split at hint <;> simp at hint
    · cases htoken
      exact ⟨List.nil_suffix, by simp⟩
  · split at htoken
    · next value width _ hread =>
      cases htoken
      rw [Option.orElse_eq_or, Option.or_eq_some_iff] at hread
      rcases hread with hword | ⟨-, hnumber⟩
      · obtain ⟨hrest, hnone⟩ := suffix_of_word? hword
        exact ⟨hrest, fun negative ds hint => absurd (Token.scalar.inj hint) (hnone negative ds)⟩
      · obtain ⟨hrest, hint⟩ := suffix_of_number? hnumber
        exact ⟨hrest, fun negative ds h => hint negative ds (Token.scalar.inj h)⟩
    · cases htoken
      exact ⟨List.nil_suffix, by simp⟩

end EmulationBindings.Json
