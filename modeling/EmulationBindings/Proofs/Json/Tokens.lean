import EmulationBindings.Proofs.Json.Strings
import EmulationBindings.Proofs.Text.Digits

/-!
# What is written as one token

Each scalar is written so that its text is one token of the decoder, whatever it is written in
front of.  For a number this holds as long as what follows cannot be a part of it, and in a
document only a comma or a line feed follows.
-/

namespace EmulationBindings.Json

/-- Nothing follows, or what separates one value from the next. -/
def Follows (rest : Text) : Prop := ∀ c ∈ rest.head?, c = ',' ∨ c = '\n'

/-- The text begins with this token, and `rest` is what follows it. -/
def Begins (t : Text) (tok : Token) (rest : Text) : Prop :=
  ∃ c u, t = c :: u ∧ isSpace c = false ∧ rest <:+ u ∧
    ∀ pos, ∃ after, token pos c u = (tok, after, rest)

/-! ## Numbers -/

section

variable {rest : Text}

theorem Follows.digits (hrest : Follows rest) : digits rest = ([], rest) := by
  cases rest with
  | nil => rfl
  | cons c t => rcases hrest c rfl with rfl | rfl <;> rfl

theorem Follows.digits_ofNat (hrest : Follows rest) (n : Nat) :
    Json.digits (Text.ofNat n ++ rest) = (Text.ofNat n, rest) := by
  have hdigit : ∀ c ∈ Text.ofNat n, c.isDigit = true := fun _ => Text.isDigit_of_mem_ofNat
  obtain ⟨htake, hdrop⟩ := Prod.mk.inj hrest.digits
  rw [Json.digits, List.takeWhile_append_of_pos hdigit, List.dropWhile_append_of_pos hdigit, htake,
    hdrop, List.append_nil]

theorem Follows.wholePart?_ofNat (hrest : Follows rest) (n : Nat) :
    wholePart? (Text.ofNat n ++ rest) = some (Text.ofNat n, rest) := by
  obtain ⟨c, more, hdigits, -, hzero⟩ := Text.exists_ofNat_eq_cons n
  by_cases hc : c = '0'
  · obtain rfl := hzero hc
    rfl
  · have hspan := hrest.digits_ofNat n
    rw [hdigits, List.cons_append] at hspan ⊢
    simp [wholePart?, hc, hspan]

theorem Follows.fraction? (hrest : Follows rest) : fraction? rest = none := by
  cases rest with
  | nil => rfl
  | cons c t => rcases hrest c rfl with rfl | rfl <;> rfl

theorem Follows.exponent? (hrest : Follows rest) : exponent? rest = none := by
  cases rest with
  | nil => rfl
  | cons c t => rcases hrest c rfl with rfl | rfl <;> rfl

theorem Follows.number?_ofNat (hrest : Follows rest) (n : Nat) :
    ∃ width, number? (Text.ofNat n ++ rest) = some (.int false (Text.ofNat n), width, rest) := by
  obtain ⟨c, more, hdigits, hdigit, -⟩ := Text.exists_ofNat_eq_cons n
  have hc : c ≠ '-' := by
    rintro rfl
    simp at hdigit
  have hwhole := hrest.wholePart?_ofNat n
  rw [hdigits] at hwhole ⊢
  simp only [List.cons_append] at hwhole ⊢
  simp [number?, hwhole, hrest.fraction?, hrest.exponent?, hc]

theorem Follows.number?_neg (hrest : Follows rest) (n : Nat) :
    ∃ width, number? ('-' :: (Text.ofNat n ++ rest)) =
      some (.int true (Text.ofNat n), width, rest) := by
  simp [number?, hrest.wholePart?_ofNat n, hrest.fraction?, hrest.exponent?]

end

/-! ## Scalars -/

def punctuation : List Char := ['[', ']', '\x7b', '\x7d', ':', ',', '"']

theorem begins_of_read {c : Char} {u rest : Text} {value : Scalar} {width : Nat}
    (hc : c ∉ punctuation) (hspace : isSpace c = false) (hrest : rest <:+ u)
    (hread : ((word? (c :: u)).orElse fun _ => number? (c :: u)) = some (value, width, rest)) :
    Begins (c :: u) (.scalar value) rest := by
  refine ⟨c, u, rfl, hspace, hrest, fun pos => ⟨pos + width, ?_⟩⟩
  simp only [punctuation, List.mem_cons, List.not_mem_nil, or_false, not_or] at hc
  obtain ⟨hopenArray, hcloseArray, hopenObject, hcloseObject, hcolon, hcomma, hquote⟩ := hc
  rw [Option.orElse_eq_or] at hread
  rw [token.eq_def]
  simp [hread]

theorem begins_word {word : Text} {value : Scalar} (hword : (word, value) ∈ words) (rest : Text) :
    Begins (word ++ rest) (.scalar value) rest := by
  simp only [words, List.mem_cons, Prod.mk.injEq, List.not_mem_nil, or_false] at hword
  rcases hword with ⟨rfl, rfl⟩ | ⟨rfl, rfl⟩ | ⟨rfl, rfl⟩ | ⟨rfl, rfl⟩ | ⟨rfl, rfl⟩ | ⟨rfl, rfl⟩ <;>
    exact begins_of_read (by decide) rfl (List.suffix_append _ rest) rfl

theorem begins_string (s rest : Text) : Begins (quote s ++ rest) (.scalar (.string s)) rest := by
  have hsuffix : rest <:+ s.flatMap escapeChar ++ '"' :: rest :=
    (List.suffix_cons '"' rest).trans (List.suffix_append _ _)
  refine ⟨'"', _, by simp [quote], rfl, hsuffix, fun pos => ?_⟩
  obtain ⟨after, hunits⟩ := stringUnits_flatMap_escapeChar pos (pos + 1) s rest
  refine ⟨after, ?_⟩
  simp only [token, hunits, ofUnits_flatMap_unitsOf]

theorem word?_eq_none {t : Text} (ht : ∀ w ∈ words, Text.after? w.1 t = none) : word? t = none := by
  rw [word?, List.findSome?_eq_none_iff]
  intro ⟨w, value⟩ hw
  simp [ht (w, value) hw]

section

variable {c : Char}

theorem ne_of_isDigit (hc : c.isDigit = true) {d : Char} (hd : d.isDigit = false) : c ≠ d := by
  rintro rfl
  simp [hc] at hd

theorem not_mem_punctuation_of_isDigit (hc : c.isDigit = true) : c ∉ punctuation := by
  simp [punctuation, ne_of_isDigit hc]

theorem isSpace_of_isDigit (hc : c.isDigit = true) : isSpace c = false := by
  simp [isSpace, ne_of_isDigit hc]

theorem word?_of_isDigit (hc : c.isDigit = true) (t : Text) : word? (c :: t) = none := by
  apply word?_eq_none
  simp [words, Text.after?, (ne_of_isDigit hc _).symm]

theorem word?_neg (hc : c.isDigit = true) (t : Text) : word? ('-' :: c :: t) = none := by
  apply word?_eq_none
  simp [words, Text.after?, (ne_of_isDigit hc _).symm]

end

theorem begins_int {rest : Text} (hrest : Follows rest) (n : Int) :
    Begins (Text.ofInt n ++ rest) (.scalar (.int (decide (n < 0)) (Text.ofNat n.natAbs))) rest := by
  cases n with
  | ofNat k =>
      change Begins (Text.ofNat k ++ rest) (.scalar (.int false (Text.ofNat k))) rest
      obtain ⟨c, more, hdigits, hdigit, -⟩ := Text.exists_ofNat_eq_cons k
      obtain ⟨width, hnumber⟩ := hrest.number?_ofNat k
      have hplain : c ∉ punctuation := not_mem_punctuation_of_isDigit hdigit
      rw [hdigits, List.cons_append] at hnumber ⊢
      apply begins_of_read hplain (isSpace_of_isDigit hdigit) (List.suffix_append more rest)
      rw [word?_of_isDigit hdigit]
      exact hnumber
  | negSucc k =>
      rw [decide_eq_true (Int.negSucc_lt_zero k)]
      change Begins ('-' :: (Text.ofNat (k + 1) ++ rest))
        (.scalar (.int true (Text.ofNat (k + 1)))) rest
      obtain ⟨c, more, hdigits, hdigit, -⟩ := Text.exists_ofNat_eq_cons (k + 1)
      obtain ⟨width, hnumber⟩ := hrest.number?_neg (k + 1)
      have hsuffix : rest <:+ Text.ofNat (k + 1) ++ rest := List.suffix_append _ rest
      apply begins_of_read (by decide) rfl hsuffix
      rw [hdigits, List.cons_append] at hnumber ⊢
      rw [word?_neg hdigit]
      exact hnumber

end EmulationBindings.Json
