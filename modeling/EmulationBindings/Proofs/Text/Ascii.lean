import EmulationBindings.Proofs.Text.Digits
import EmulationBindings.Text.Utf8

/-!
# ASCII texts

A text of ASCII characters is one byte a character, and texts put together from such texts are
such texts.
-/

namespace EmulationBindings

namespace Text

def IsAscii (t : Text) : Prop := ∀ c ∈ t, c.toNat < 0x80

@[simp] theorem isAscii_nil : IsAscii [] := by simp [IsAscii]

@[simp] theorem isAscii_cons {c : Char} {t : Text} :
    IsAscii (c :: t) ↔ c.toNat < 0x80 ∧ IsAscii t :=
  List.forall_mem_cons

@[simp] theorem isAscii_append {t u : Text} : IsAscii (t ++ u) ↔ IsAscii t ∧ IsAscii u :=
  List.forall_mem_append

theorem isAscii_flatMap {α : Type} {f : α → Text} {as : List α} (hf : ∀ a ∈ as, IsAscii (f a)) :
    IsAscii (as.flatMap f) := by
  intro c hc
  obtain ⟨a, ha, hmem⟩ := List.mem_flatMap.mp hc
  exact hf a ha c hmem

theorem isAscii_intercalate {separator : Text} {ts : List Text} (hseparator : IsAscii separator)
    (hts : ∀ t ∈ ts, IsAscii t) : IsAscii (List.intercalate separator ts) := by
  induction ts with
  | nil => simp
  | cons t rest ih =>
      have ht : IsAscii t := hts t List.mem_cons_self
      have hrest := ih fun u hu => hts u (List.mem_cons_of_mem t hu)
      cases rest with
      | nil => simpa using ht
      | cons u more => simp [List.intercalate_cons_cons, ht, hseparator, hrest]

theorem isAscii_ofNat (n : Nat) : IsAscii (ofNat n) :=
  fun _ hc => toNat_lt_of_isDigit (isDigit_of_mem_ofNat hc)

theorem isAscii_ofInt (n : Int) : IsAscii (ofInt n) := by
  cases n with
  | ofNat k => exact isAscii_ofNat k
  | negSucc k => exact isAscii_cons.mpr ⟨by decide, isAscii_ofNat (k + 1)⟩

end Text

namespace Utf8

theorem toNat_lt_of_mem_encode {t : Text} (ht : t.IsAscii) {b : UInt8} (hb : b ∈ encode t) :
    b.toNat < 0x80 := by
  obtain ⟨c, hc, hmem⟩ := List.mem_flatMap.mp hb
  have hlow : c.toNat < 0x80 := ht c hc
  have hbyte : b = UInt8.ofNat c.toNat := by simpa [encodeChar, hlow] using hmem
  rw [hbyte, UInt8.toNat_ofNat']
  omega

end Utf8

end EmulationBindings
