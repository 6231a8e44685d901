import EmulationBindings.Json.Printer
import EmulationBindings.Json.Token
import EmulationBindings.Proofs.Text.Ascii

/-!
# Strings in JSON

Every character is written as printable ASCII: as itself, as a short escape, or as the escapes of
its code units.  What is written between the quotes reads back as the code units of the text, and
these give the text back.
-/

namespace EmulationBindings.Json

/-! ## Code units -/

/-- The code units of a character: its code, or a high and a low surrogate. -/
def unitsOf (c : Char) : List Nat :=
  if c.toNat < 0x10000 then [c.toNat]
  else [0xD800 + (c.toNat - 0x10000) / 0x400, 0xDC00 + (c.toNat - 0x10000) % 0x400]

theorem lt_or_lt_toNat (c : Char) : c.toNat < 0xD800 ∨ 0xDFFF < c.toNat ∧ c.toNat < 0x110000 :=
  c.valid

theorem unitsOf_lt (c : Char) : ∀ n ∈ unitsOf c, n < 0x10000 := by
  have hvalid := lt_or_lt_toNat c
  unfold unitsOf
  split
  · simpa
  · simp only [List.mem_cons, List.not_mem_nil, or_false, forall_eq_or_imp, forall_eq]
    omega

theorem isSurrogate_eq_false_iff {n : Nat} :
    isSurrogate n = false ↔ isHigh n = false ∧ isLow n = false := by
  simp [isSurrogate]

theorem isSurrogate_toNat (c : Char) : isSurrogate c.toNat = false := by
  have hvalid := lt_or_lt_toNat c
  simp only [isSurrogate_eq_false_iff, isHigh, isLow, Bool.and_eq_false_iff,
    decide_eq_false_iff_not]
  omega

section

variable {c : Char}

theorem isHigh_first (hc : 0x10000 ≤ c.toNat) :
    isHigh (0xD800 + (c.toNat - 0x10000) / 0x400) = true := by
  have hvalid := lt_or_lt_toNat c
  simp only [isHigh, Bool.and_eq_true, decide_eq_true_eq]
  omega

theorem isLow_second (c : Char) : isLow (0xDC00 + (c.toNat - 0x10000) % 0x400) = true := by
  simp only [isLow, Bool.and_eq_true, decide_eq_true_eq]
  omega

theorem joined_surrogates (hc : 0x10000 ≤ c.toNat) :
    0x10000 + (0xD800 + (c.toNat - 0x10000) / 0x400 - 0xD800) * 0x400 +
      (0xDC00 + (c.toNat - 0x10000) % 0x400 - 0xDC00) = c.toNat := by
  omega

end

theorem codePoints_cons_toNat (c : Char) (ns : List Nat) :
    codePoints (c.toNat :: ns) = c.toNat :: codePoints ns := by
  have hhigh := (isSurrogate_eq_false_iff.mp (isSurrogate_toNat c)).1
  cases ns <;> simp [codePoints, hhigh]

theorem codePoints_unitsOf_append (c : Char) (ns : List Nat) :
    codePoints (unitsOf c ++ ns) = c.toNat :: codePoints ns := by
  unfold unitsOf
  split
  · exact codePoints_cons_toNat c ns
  · next hc =>
    have hc : 0x10000 ≤ c.toNat := Nat.not_lt.mp hc
    simp only [List.cons_append, List.nil_append, codePoints]
    rw [isHigh_first hc, isLow_second, Bool.and_self, if_pos rfl, joined_surrogates hc]

theorem codePoints_flatMap_unitsOf (s : Text) :
    codePoints (s.flatMap unitsOf) = s.map Char.toNat := by
  induction s with
  | nil => rfl
  | cons c rest ih => rw [List.flatMap_cons, codePoints_unitsOf_append, ih, List.map_cons]

theorem textOf_map_toNat (s : Text) : textOf (s.map Char.toNat) = s := by
  simp [textOf, isSurrogate_toNat, Function.comp_def]

theorem ofUnits_flatMap_unitsOf (s : Text) : Scalar.ofUnits (s.flatMap unitsOf) = .string s := by
  have hnone : (s.map Char.toNat).any isSurrogate = false := by simp [isSurrogate_toNat]
  rw [Scalar.ofUnits, codePoints_flatMap_unitsOf, hnone, textOf_map_toNat]
  rfl

/-! ## Escapes -/

theorem hexValue?_digitChar {n : Nat} (hn : n < 16) : hexValue? n.digitChar = some n := by
  revert n
  decide

theorem hex_four (n : Nat) :
    Text.hex 4 n = [(n / 16 / 16 / 16 % 16).digitChar, (n / 16 / 16 % 16).digitChar,
      (n / 16 % 16).digitChar, (n % 16).digitChar] := rfl

theorem unit?_hex {n : Nat} (hn : n < 0x10000) :
    unit? (n / 16 / 16 / 16 % 16).digitChar (n / 16 / 16 % 16).digitChar
      (n / 16 % 16).digitChar (n % 16).digitChar = some n := by
  have hdigit (k : Nat) : hexValue? (k % 16).digitChar = some (k % 16) :=
    hexValue?_digitChar (Nat.mod_lt k (by decide))
  simp only [unit?, hdigit, Option.bind_eq_bind, Option.bind_some, Option.pure_def,
    Option.some.injEq]
  omega

variable (opening pos : Nat)

theorem stringUnits_unitEscape {n : Nat} (hn : n < 0x10000) (next : Char) (rest : Text) :
    stringUnits opening pos (unitEscape n ++ next :: rest) =
      (stringUnits opening (pos + 6) (next :: rest)).map fun (ns, r) => (n :: ns, r) := by
  simp only [unitEscape, hex_four]
  simp [stringUnits, unit?_hex hn]

/-- Code units that are written as escapes read back, as long as something follows. -/
theorem stringUnits_flatMap_unitEscape {units : List Nat} (hunits : ∀ n ∈ units, n < 0x10000)
    (next : Char) (rest : Text) :
    ∃ width, stringUnits opening pos (units.flatMap unitEscape ++ next :: rest) =
      (stringUnits opening (pos + width) (next :: rest)).map fun (ns, r) => (units ++ ns, r) := by
  induction units generalizing pos with
  | nil =>
      refine ⟨0, ?_⟩
      cases hrest : stringUnits opening pos (next :: rest) <;> simp [hrest, Except.map]
  | cons n more ih =>
      have hn : n < 0x10000 := hunits n List.mem_cons_self
      obtain ⟨width, hmore⟩ := ih (pos + 6) fun m hm => hunits m (List.mem_cons_of_mem n hm)
      obtain ⟨first, tail, hnext⟩ : ∃ first tail, more.flatMap unitEscape ++ next :: rest =
          first :: tail := List.exists_cons_of_ne_nil (by simp)
      refine ⟨6 + width, ?_⟩
      rw [List.flatMap_cons, List.append_assoc, hnext, stringUnits_unitEscape _ _ hn, ← hnext,
        hmore, Nat.add_assoc]
      cases stringUnits opening (pos + (6 + width)) (next :: rest) <;> simp [Except.map]

theorem stringUnits_escape {e c : Char} (he : escaped? e = some c) (rest : Text) :
    stringUnits opening pos ('\\' :: e :: rest) =
      (stringUnits opening (pos + 2) rest).map fun (ns, r) => (c.toNat :: ns, r) := by
  have hu : e ≠ 'u' := by
    rintro rfl
    simp [escaped?] at he
  rw [stringUnits.eq_def]
  simp [hu, he]

theorem stringUnits_plain {c : Char} (hquote : c ≠ '"') (hbackslash : c ≠ '\\')
    (hc : 0x20 ≤ c.toNat) (rest : Text) :
    stringUnits opening pos (c :: rest) =
      (stringUnits opening (pos + 1) rest).map fun (ns, r) => (c.toNat :: ns, r) := by
  rw [stringUnits.eq_def]
  simp [hbackslash, Nat.not_lt.mpr hc]

/-- The characters that have an escape of two characters, each behind the second of these. -/
def shortEscapes : List (Char × Char) :=
  [('"', '"'), ('\\', '\\'), ('n', '\n'), ('r', '\r'), ('t', '\t'), ('b', '\x08'), ('f', '\x0c')]

theorem escapeChar_of_mem_shortEscapes :
    ∀ p ∈ shortEscapes, escapeChar p.2 = ['\\', p.1] ∧ escaped? p.1 = some p.2 ∧
      p.1.toNat < 0x80 ∧ unitsOf p.2 = [p.2.toNat] := by
  decide

/-- What is written for a character: a short escape, the character itself, or the escapes of its
code units. -/
theorem escapeChar_cases (c : Char) :
    (∃ e, (e, c) ∈ shortEscapes) ∨
      (c ≠ '"' ∧ c ≠ '\\' ∧ 0x20 ≤ c.toNat ∧ c.toNat < 0x7F ∧ escapeChar c = [c]) ∨
      escapeChar c = (unitsOf c).flatMap unitEscape := by
  by_cases hshort : c ∈ shortEscapes.map Prod.snd
  · obtain ⟨⟨e, d⟩, he, rfl⟩ := List.mem_map.mp hshort
    exact .inl ⟨e, he⟩
  simp only [shortEscapes, List.map_cons, List.map_nil, List.mem_cons, List.not_mem_nil, or_false,
    not_or] at hshort
  obtain ⟨hquote, hbackslash, hnewline, hreturn, htab, hbackspace, hfeed⟩ := hshort
  simp only [escapeChar, hquote, hbackslash, hnewline, hreturn, htab, hbackspace, hfeed, if_false]
  by_cases hself : 0x20 ≤ c.toNat ∧ c.toNat ≤ 0x7E
  · rw [if_pos hself]
    exact .inr (.inl ⟨hquote, hbackslash, hself.1, by omega, rfl⟩)
  · rw [if_neg hself]
    refine .inr (.inr ?_)
    unfold unitsOf
    split <;> simp

/-- What is written for a character reads back as its code units. -/
theorem stringUnits_escapeChar (c next : Char) (rest : Text) :
    ∃ width, stringUnits opening pos (escapeChar c ++ next :: rest) =
      (stringUnits opening (pos + width) (next :: rest)).map
        fun (ns, r) => (unitsOf c ++ ns, r) := by
  rcases escapeChar_cases c with ⟨e, he⟩ | ⟨hquote, hbackslash, hlow, hhigh, hself⟩ | hunits
  · obtain ⟨hc, hescaped, -, hunits⟩ := escapeChar_of_mem_shortEscapes (e, c) he
    rw [hc, hunits]
    exact ⟨2, stringUnits_escape opening pos hescaped (next :: rest)⟩
  · have hunits : unitsOf c = [c.toNat] := if_pos (by omega)
    rw [hself, hunits]
    exact ⟨1, stringUnits_plain opening pos hquote hbackslash hlow (next :: rest)⟩
  · rw [hunits]
    exact stringUnits_flatMap_unitEscape opening pos (unitsOf_lt c) next rest

/-- What is written between the quotes reads back as the code units of the text. -/
theorem stringUnits_flatMap_escapeChar (s rest : Text) :
    ∃ after, stringUnits opening pos (s.flatMap escapeChar ++ '"' :: rest) =
      .ok (s.flatMap unitsOf, after, rest) := by
  induction s generalizing pos with
  | nil => exact ⟨pos + 1, by simp [stringUnits]⟩
  | cons c more ih =>
      obtain ⟨first, tail, hnext⟩ : ∃ first tail, more.flatMap escapeChar ++ '"' :: rest =
          first :: tail := List.exists_cons_of_ne_nil (by simp)
      obtain ⟨width, hfirst⟩ := stringUnits_escapeChar opening pos c first tail
      obtain ⟨after, hmore⟩ := ih (pos + width)
      refine ⟨after, ?_⟩
      rw [List.flatMap_cons, List.append_assoc, hnext, hfirst, ← hnext, hmore]
      rfl

/-! ## ASCII -/

theorem isAscii_unitEscape (n : Nat) : Text.IsAscii (unitEscape n) := by
  have hdigit : ∀ k < 16, k.digitChar.toNat < 0x80 := by decide
  have hhex (k : Nat) : (k % 16).digitChar.toNat < 0x80 := hdigit _ (Nat.mod_lt k (by decide))
  simp [unitEscape, hex_four, hhex]

theorem isAscii_escapeChar (c : Char) : Text.IsAscii (escapeChar c) := by
  rcases escapeChar_cases c with ⟨e, he⟩ | ⟨-, -, -, hhigh, hself⟩ | hunits
  · obtain ⟨hc, -, hlow, -⟩ := escapeChar_of_mem_shortEscapes (e, c) he
    simp [hc, hlow]
  · simp [hself, Nat.lt_succ_of_lt hhigh]
  · rw [hunits]
    exact Text.isAscii_flatMap fun n _ => isAscii_unitEscape n

theorem isAscii_quote (s : Text) : Text.IsAscii (quote s) := by
  have hescaped : Text.IsAscii (s.flatMap escapeChar) :=
    Text.isAscii_flatMap fun c _ => isAscii_escapeChar c
  simp [quote, hescaped]

end EmulationBindings.Json
