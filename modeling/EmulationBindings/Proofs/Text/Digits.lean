import EmulationBindings.Text.Basic

/-!
# Numbers in digits

The decimal digits of a number give the number back, and a zero in front of them is the number
zero.
-/

namespace EmulationBindings.Text

theorem digitsValue_ofNat (n : Nat) : digitsValue (ofNat n) = n :=
  Nat.ofDigitChars_ten_toDigits

theorem isDigit_of_mem_ofNat {n : Nat} {c : Char} (hc : c ∈ ofNat n) : c.isDigit = true :=
  Nat.isDigit_of_mem_toDigits (by decide) (by decide) hc

theorem toNat_lt_of_isDigit {c : Char} (hc : c.isDigit = true) : c.toNat < 0x80 := by
  simp only [Char.isDigit, Bool.and_eq_true, decide_eq_true_eq] at hc
  have hle : c.toNat ≤ ('9' : Char).toNat := hc.2
  have hnine : ('9' : Char).toNat = 0x39 := rfl
  omega

/-- A number begins with a digit, and only the number zero with a zero. -/
theorem exists_ofNat_eq_cons (n : Nat) :
    ∃ c rest, ofNat n = c :: rest ∧ c.isDigit = true ∧ (c = '0' → n = 0) := by
  induction n using Nat.strongRecOn with
  | ind n ih =>
      unfold ofNat at ih ⊢
      rw [Nat.toDigits_eq_if (by decide)]
      split
      · next hn =>
        have hdigit : ∀ k < 10, k.digitChar.isDigit = true ∧ (k.digitChar = '0' → k = 0) := by
          decide
        exact ⟨_, _, rfl, hdigit n hn⟩
      · next hn =>
        obtain ⟨c, rest, hdigits, hdigit, hzero⟩ := ih (n / 10) (by omega)
        rw [hdigits]
        refine ⟨c, _, rfl, hdigit, fun hc => ?_⟩
        have hsmall := hzero hc
        omega

end EmulationBindings.Text
