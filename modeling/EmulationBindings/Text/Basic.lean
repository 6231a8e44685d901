/-!
# Texts

A text is a list of characters, so that scanning is recursion on the list and a theorem about
texts is a theorem about lists.  A string literal stands for the list of its characters.
-/

namespace EmulationBindings

abbrev Text := List Char

instance : Coe String Text := ⟨String.toList⟩

namespace Text

/-- What follows `start` in `t`, when `t` begins with it. -/
def after? : (start t : Text) → Option Text
  | [], t => some t
  | _ :: _, [] => none
  | s :: start, c :: t => if s = c then after? start t else none

theorem after?_eq_some_iff {start t rest : Text} :
    after? start t = some rest ↔ t = start ++ rest := by
  induction start generalizing t with
  | nil => simp [after?]
  | cons s start ih =>
    cases t with
    | nil => simp [after?]
    | cons c t =>
      by_cases h : s = c
      · subst h
        simp [after?, ih]
      · simp [after?, h, Ne.symm h]

/-- Cuts `t` at the first place where `m` occurs, into what stands before and after it. -/
def cut? (m : Text) : Text → Option (Text × Text)
  | [] => (after? m []).map ([], ·)
  | c :: t =>
    match after? m (c :: t) with
    | some rest => some ([], rest)
    | none => (cut? m t).map fun (before, rest) => (c :: before, rest)

theorem eq_of_cut?_eq_some {m t before rest : Text} (h : cut? m t = some (before, rest)) :
    t = before ++ m ++ rest := by
  induction t generalizing before with
  | nil =>
    simp only [cut?, Option.map_eq_some_iff, Prod.mk.injEq] at h
    obtain ⟨r, hr, rfl, rfl⟩ := h
    simpa using after?_eq_some_iff.1 hr
  | cons c t ih =>
    unfold cut? at h
    split at h
    · next r hr =>
      cases h
      simpa using after?_eq_some_iff.1 hr
    · simp only [Option.map_eq_some_iff, Prod.mk.injEq] at h
      obtain ⟨⟨b, r⟩, hcut, rfl, rfl⟩ := h
      simp [ih hcut]

theorem cut?_eq_none_iff {m t : Text} :
    cut? m t = none ↔ ∀ before rest, t ≠ before ++ m ++ rest := by
  induction t with
  | nil => cases m <;> simp [cut?, after?]
  | cons c t ih =>
    unfold cut?
    split
    · next r hr =>
      have ht := after?_eq_some_iff.1 hr
      simp only [reduceCtorEq, false_iff]
      intro h
      exact h [] r (by simpa using ht)
    · next hr =>
      simp only [Option.map_eq_none_iff, ih]
      constructor
      · intro h before rest ht
        cases before with
        | nil =>
          have hsome : after? m (c :: t) = some rest :=
            after?_eq_some_iff.2 (by simpa using ht)
          rw [hr] at hsome
          cases hsome
        | cons b before =>
          simp only [List.cons_append, List.cons.injEq] at ht
          exact h before rest (by simpa using ht.2)
      · intro h before rest ht
        exact h (c :: before) rest (by simp [ht])

def occurs (m t : Text) : Bool := (cut? m t).isSome

def commas (ts : List Text) : Text := List.intercalate ", " ts

def ofNat (n : Nat) : Text := Nat.toDigits 10 n

def ofInt : Int → Text
  | .ofNat n => ofNat n
  | .negSucc n => '-' :: ofNat (n + 1)

def digitsValue (ds : Text) : Nat := Nat.ofDigitChars 10 ds 0

def hex (width n : Nat) : Text :=
  match width with
  | 0 => []
  | k + 1 => hex k (n / 16) ++ [Nat.digitChar (n % 16)]

end Text

end EmulationBindings
