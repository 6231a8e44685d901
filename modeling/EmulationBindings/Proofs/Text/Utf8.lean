import EmulationBindings.Text.Utf8
import Mathlib.Algebra.Group.Nat.Defs

/-!
# Texts and their bytes

The decoder takes one byte at a time and holds back a sequence until its last byte.  A sequence
held back still stands for a range of values, and for each of them its bytes so far are the first
bytes of the encoding.  From this follow both directions: decoding undoes encoding, and bytes that
decode at all are the encoding of what they decode to.
-/

namespace EmulationBindings.Utf8

/-- The last `k` bytes of a sequence for the value `n`, six bits in each. -/
def continuation : Nat → Nat → Bytes
  | 0, _ => []
  | k + 1, n => .ofNat (0x80 + n / 0x40 ^ k % 0x40) :: continuation k n

def Segment.bytes : Segment → Bytes
  | .scalar c => encodeChar c
  | .illFormed run _ => run

namespace Pending

def two (b : UInt8) : Pending where
  run := [b]
  value := b.toNat - 0xC0
  more := 0

def three (b : UInt8) : Pending where
  run := [b]
  value := b.toNat - 0xE0
  more := 1
  low := if b.toNat = 0xE0 then 0xA0 else 0x80
  high := if b.toNat = 0xED then 0x9F else 0xBF

def four (b : UInt8) : Pending where
  run := [b]
  value := b.toNat - 0xF0
  more := 2
  low := if b.toNat = 0xF0 then 0x90 else 0x80
  high := if b.toNat = 0xF4 then 0x8F else 0xBF

/-- The sequence can still become one for `n`. -/
def Fits (p : Pending) (n : Nat) : Prop :=
  n / 0x40 ^ (p.more + 1) = p.value ∧
    p.low ≤ 0x80 + n / 0x40 ^ p.more % 0x40 ∧ 0x80 + n / 0x40 ^ p.more % 0x40 ≤ p.high

/-- Whatever the sequence can still become is a character, and the bytes so far begin it. -/
structure Sound (p : Pending) : Prop where
  low : 0x80 ≤ p.low
  high : p.high ≤ 0xBF
  valid : ∀ n, p.Fits n → n.isValidChar
  begins : ∀ n, p.Fits n → encodeChar (.ofNat n) = p.run ++ continuation (p.more + 1) n

end Pending

theorem toNat_ofNat_of_isValidChar {n : Nat} (hn : n.isValidChar) : (Char.ofNat n).toNat = n := by
  unfold Char.ofNat
  rw [dif_pos hn]
  rfl

/-! ## The first byte -/

theorem encodeChar_of_lt {b : UInt8} (hb : b.toNat < 0x80) :
    encodeChar (.ofNat b.toNat) = [b] := by
  have hvalid : b.toNat.isValidChar := Or.inl (by omega)
  simp [encodeChar, toNat_ofNat_of_isValidChar hvalid, hb]

theorem start_of_lt {b : UInt8} (hb : b.toNat < 0x80) :
    start b = ([.scalar (.ofNat b.toNat)], none) := by
  simp [start, hb]

theorem start_of_two {b : UInt8} (hlow : 0xC2 ≤ b.toNat) (hhigh : b.toNat < 0xE0) :
    start b = ([], some (.two b)) := by
  unfold start
  simp only
  rw [if_neg (by omega), if_neg (by omega), if_pos hhigh]
  rfl

theorem start_of_three {b : UInt8} (hlow : 0xE0 ≤ b.toNat) (hhigh : b.toNat < 0xF0) :
    start b = ([], some (.three b)) := by
  unfold start
  simp only
  rw [if_neg (by omega), if_neg (by omega), if_neg (by omega), if_pos hhigh]
  rfl

theorem start_of_four {b : UInt8} (hlow : 0xF0 ≤ b.toNat) (hhigh : b.toNat < 0xF5) :
    start b = ([], some (.four b)) := by
  unfold start
  simp only
  rw [if_neg (by omega), if_neg (by omega), if_neg (by omega), if_neg (by omega), if_pos hhigh]
  rfl

theorem sound_two {b : UInt8} (hlow : 0xC2 ≤ b.toNat) (hhigh : b.toNat < 0xE0) :
    (Pending.two b).Sound := by
  have hrange (n : Nat) (hn : (Pending.two b).Fits n) :
      0x80 ≤ n ∧ n < 0x800 ∧ 0xC0 + n / 0x40 = b.toNat := by
    obtain ⟨hvalue, -, -⟩ := hn
    simp only [Pending.two, Nat.zero_add, Nat.pow_one] at hvalue
    omega
  refine ⟨Nat.le_refl _, Nat.le_refl _, fun n hn => ?_, fun n hn => ?_⟩
  · obtain ⟨-, hhigh, -⟩ := hrange n hn
    exact .inl (by omega)
  · obtain ⟨hlow, hhigh, hfirst⟩ := hrange n hn
    unfold encodeChar
    rw [toNat_ofNat_of_isValidChar (.inl (by omega)), if_neg (by omega), if_pos hhigh, hfirst]
    simp [Pending.two, continuation]

theorem sound_three {b : UInt8} (hlow : 0xE0 ≤ b.toNat) (hhigh : b.toNat < 0xF0) :
    (Pending.three b).Sound := by
  -- The bounds on the second byte keep out values that are too small and surrogates.
  have hrange (n : Nat) (hn : (Pending.three b).Fits n) :
      0x800 ≤ n ∧ n < 0x10000 ∧ n.isValidChar ∧ 0xE0 + n / 0x1000 = b.toNat := by
    obtain ⟨hvalue, hleast, hmost⟩ := hn
    simp only [Pending.three] at hvalue hleast hmost
    unfold Nat.isValidChar
    split at hleast <;> split at hmost <;> omega
  refine ⟨?_, ?_, fun n hn => (hrange n hn).2.2.1, fun n hn => ?_⟩
  · simp only [Pending.three]
    split <;> omega
  · simp only [Pending.three]
    split <;> omega
  · obtain ⟨hlow, hhigh, hvalid, hfirst⟩ := hrange n hn
    unfold encodeChar
    rw [toNat_ofNat_of_isValidChar hvalid, if_neg (by omega), if_neg (by omega), if_pos hhigh,
      hfirst]
    simp [Pending.three, continuation]

theorem sound_four {b : UInt8} (hlow : 0xF0 ≤ b.toNat) (hhigh : b.toNat < 0xF5) :
    (Pending.four b).Sound := by
  have hrange (n : Nat) (hn : (Pending.four b).Fits n) :
      0x10000 ≤ n ∧ n.isValidChar ∧ 0xF0 + n / 0x40000 = b.toNat := by
    obtain ⟨hvalue, hleast, hmost⟩ := hn
    simp only [Pending.four] at hvalue hleast hmost
    unfold Nat.isValidChar
    split at hleast <;> split at hmost <;> omega
  refine ⟨?_, ?_, fun n hn => (hrange n hn).2.1, fun n hn => ?_⟩
  · simp only [Pending.four]
    split <;> omega
  · simp only [Pending.four]
    split <;> omega
  · obtain ⟨hlow, hvalid, hfirst⟩ := hrange n hn
    unfold encodeChar
    rw [toNat_ofNat_of_isValidChar hvalid, if_neg (by omega), if_neg (by omega),
      if_neg (by omega), hfirst]
    simp [Pending.four, continuation]

/-- A byte is a character by itself, or begins no character, or begins a longer one. -/
theorem start_cases (b : UInt8) :
    (b.toNat < 0x80 ∧ start b = ([.scalar (.ofNat b.toNat)], none)) ∨
      start b = ([.illFormed [b] .invalidStart], none) ∨
      ∃ p, start b = ([], some p) ∧ p.run = [b] ∧ p.Sound := by
  by_cases h1 : b.toNat < 0x80
  · exact .inl ⟨h1, start_of_lt h1⟩
  right
  by_cases hbad : b.toNat < 0xC2 ∨ 0xF5 ≤ b.toNat
  · left
    unfold start
    simp only
    grind
  right
  by_cases h3 : b.toNat < 0xE0
  · exact ⟨_, start_of_two (by omega) h3, rfl, sound_two (by omega) h3⟩
  by_cases h4 : b.toNat < 0xF0
  · exact ⟨_, start_of_three (by omega) h4, rfl, sound_three (by omega) h4⟩
  · exact ⟨_, start_of_four (by omega) (by omega), rfl, sound_four (by omega) (by omega)⟩

/-! ## The bytes after it -/

/-- The sequence after one more byte that is not its last. -/
def Pending.push (p : Pending) (b : UInt8) (more : Nat) : Pending where
  run := p.run ++ [b]
  value := p.value * 0x40 + (b.toNat - 0x80)
  more := more

theorem feed_last {p : Pending} {b : UInt8} (hmore : p.more = 0) (hlow : p.low ≤ b.toNat)
    (hhigh : b.toNat ≤ p.high) :
    feed (some p) b = ([.scalar (.ofNat (p.value * 0x40 + (b.toNat - 0x80)))], none) := by
  simp only [feed]
  rw [if_pos ⟨hlow, hhigh⟩, hmore]

theorem feed_push {p : Pending} {b : UInt8} {k : Nat} (hmore : p.more = k + 1)
    (hlow : p.low ≤ b.toNat) (hhigh : b.toNat ≤ p.high) :
    feed (some p) b = ([], some (p.push b k)) := by
  simp only [feed]
  rw [if_pos ⟨hlow, hhigh⟩, hmore]
  rfl

theorem feed_broken {p : Pending} {b : UInt8} (hout : ¬ (p.low ≤ b.toNat ∧ b.toNat ≤ p.high)) :
    feed (some p) b =
      (.illFormed p.run .invalidContinuation :: (start b).1, (start b).2) := by
  simp only [feed]
  rw [if_neg hout]

theorem Pending.Sound.fits_last {p : Pending} (hp : p.Sound) (hmore : p.more = 0) {b : UInt8}
    (hlow : p.low ≤ b.toNat) (hhigh : b.toNat ≤ p.high) :
    p.Fits (p.value * 0x40 + (b.toNat - 0x80)) := by
  have h80 := hp.low
  have hbf := hp.high
  unfold Fits
  simp only [hmore, Nat.zero_add, Nat.pow_one, Nat.pow_zero, Nat.div_one]
  omega

theorem Pending.Sound.encodeChar_last {p : Pending} (hp : p.Sound) (hmore : p.more = 0) {b : UInt8}
    (hlow : p.low ≤ b.toNat) (hhigh : b.toNat ≤ p.high) :
    encodeChar (.ofNat (p.value * 0x40 + (b.toNat - 0x80))) = p.run ++ [b] := by
  have h80 := hp.low
  have hbf := hp.high
  have hbyte : 0x80 + (p.value * 0x40 + (b.toNat - 0x80)) % 0x40 = b.toNat := by omega
  rw [hp.begins _ (hp.fits_last hmore hlow hhigh), hmore, continuation, Nat.pow_zero, Nat.div_one,
    hbyte, UInt8.ofNat_toNat, continuation]

/-- What the longer sequence can become, the shorter one could become, and this byte comes next. -/
theorem Pending.Sound.fits_of_push {p : Pending} (hp : p.Sound) {b : UInt8} {k : Nat}
    (hmore : p.more = k + 1) (hlow : p.low ≤ b.toNat) (hhigh : b.toNat ≤ p.high) {n : Nat}
    (hn : (p.push b k).Fits n) :
    p.Fits n ∧ 0x80 + n / 0x40 ^ (k + 1) % 0x40 = b.toNat := by
  have h80 := hp.low
  have hbf := hp.high
  obtain ⟨hvalue, -, -⟩ := hn
  simp only [push] at hvalue
  have hup : n / 0x40 ^ (k + 1 + 1) = n / 0x40 ^ (k + 1) / 0x40 := by
    rw [Nat.div_div_eq_div_mul, ← Nat.pow_succ]
  unfold Fits
  rw [hmore, hup, hvalue]
  omega

theorem Pending.Sound.push {p : Pending} (hp : p.Sound) {b : UInt8} {k : Nat}
    (hmore : p.more = k + 1) (hlow : p.low ≤ b.toNat) (hhigh : b.toNat ≤ p.high) :
    (p.push b k).Sound where
  low := Nat.le_refl _
  high := Nat.le_refl _
  valid := fun n hn => hp.valid n (hp.fits_of_push hmore hlow hhigh hn).1
  begins := by
    intro n hn
    obtain ⟨hfits, hbyte⟩ := hp.fits_of_push hmore hlow hhigh hn
    rw [hp.begins n hfits, hmore, continuation, hbyte, UInt8.ofNat_toNat]
    simp [Pending.push]

/-! ## Segments lose no byte -/

def pendingRun : Option Pending → Bytes
  | none => []
  | some p => p.run

theorem sound_and_bytes_of_start (b : UInt8) :
    (∀ p ∈ (start b).2, p.Sound) ∧
      (start b).1.flatMap Segment.bytes ++ pendingRun (start b).2 = [b] := by
  rcases start_cases b with ⟨hb, hstart⟩ | hstart | ⟨p, hstart, hrun, hp⟩
  · simp [hstart, pendingRun, Segment.bytes, encodeChar_of_lt hb]
  · simp [hstart, pendingRun, Segment.bytes]
  · simp [hstart, pendingRun, hrun, hp]

/-- One step: what is held back stays sound, and no byte is lost or added. -/
theorem sound_and_bytes_of_feed {state : Option Pending} (hstate : ∀ p ∈ state, p.Sound)
    (b : UInt8) :
    (∀ p ∈ (feed state b).2, p.Sound) ∧
      (feed state b).1.flatMap Segment.bytes ++ pendingRun (feed state b).2 =
        pendingRun state ++ [b] := by
  cases state with
  | none => exact sound_and_bytes_of_start b
  | some p =>
      have hp : p.Sound := hstate p rfl
      by_cases hrange : p.low ≤ b.toNat ∧ b.toNat ≤ p.high
      · obtain ⟨hlow, hhigh⟩ := hrange
        cases hmore : p.more with
        | zero =>
            rw [feed_last hmore hlow hhigh]
            simp [pendingRun, Segment.bytes, hp.encodeChar_last hmore hlow hhigh]
        | succ k =>
            rw [feed_push hmore hlow hhigh]
            refine ⟨?_, rfl⟩
            rintro _ ⟨⟩
            exact hp.push hmore hlow hhigh
      · obtain ⟨hsound, hbytes⟩ := sound_and_bytes_of_start b
        rw [feed_broken hrange]
        refine ⟨hsound, ?_⟩
        rw [List.flatMap_cons, List.append_assoc, hbytes]
        rfl

theorem flatMap_bytes_segmentsFrom {state : Option Pending} (hstate : ∀ p ∈ state, p.Sound)
    (bs : Bytes) :
    (segmentsFrom state bs).flatMap Segment.bytes = pendingRun state ++ bs := by
  induction bs generalizing state with
  | nil =>
      cases state with
      | none => rfl
      | some p => simp [segmentsFrom, Segment.bytes, pendingRun]
  | cons b bs ih =>
      obtain ⟨hsound, hbytes⟩ := sound_and_bytes_of_feed hstate b
      calc
        (segmentsFrom state (b :: bs)).flatMap Segment.bytes =
            (feed state b).1.flatMap Segment.bytes ++
              (segmentsFrom (feed state b).2 bs).flatMap Segment.bytes := by
          rw [segmentsFrom, List.flatMap_append]
        _ = (feed state b).1.flatMap Segment.bytes ++ pendingRun (feed state b).2 ++ bs := by
          rw [ih hsound, List.append_assoc]
        _ = pendingRun state ++ b :: bs := by
          rw [hbytes, List.append_assoc, List.singleton_append]

theorem flatMap_bytes_segments (bs : Bytes) : (segments bs).flatMap Segment.bytes = bs :=
  flatMap_bytes_segmentsFrom (by simp) bs

/-! ## A character is read back -/

theorem fits_two {n : Nat} (hlow : 0x80 ≤ n) (hhigh : n < 0x800) :
    (Pending.two (.ofNat (0xC0 + n / 0x40))).Fits n := by
  have hb : (UInt8.ofNat (0xC0 + n / 0x40)).toNat = 0xC0 + n / 0x40 :=
    UInt8.toNat_ofNat_of_lt' (by simp only [UInt8.size]; omega)
  simp only [Pending.Fits, Pending.two, hb]
  omega

theorem fits_three {n : Nat} (hvalid : n.isValidChar) (hlow : 0x800 ≤ n) (hhigh : n < 0x10000) :
    (Pending.three (.ofNat (0xE0 + n / 0x1000))).Fits n := by
  have hb : (UInt8.ofNat (0xE0 + n / 0x1000)).toNat = 0xE0 + n / 0x1000 :=
    UInt8.toNat_ofNat_of_lt' (by simp only [UInt8.size]; omega)
  unfold Nat.isValidChar at hvalid
  simp only [Pending.Fits, Pending.three, hb]
  refine ⟨by omega, ?_, ?_⟩
  · split <;> omega
  · split <;> omega

theorem fits_four {n : Nat} (hvalid : n.isValidChar) (hlow : 0x10000 ≤ n) :
    (Pending.four (.ofNat (0xF0 + n / 0x40000))).Fits n := by
  unfold Nat.isValidChar at hvalid
  have hb : (UInt8.ofNat (0xF0 + n / 0x40000)).toNat = 0xF0 + n / 0x40000 :=
    UInt8.toNat_ofNat_of_lt' (by simp only [UInt8.size]; omega)
  simp only [Pending.Fits, Pending.four, hb]
  refine ⟨by omega, ?_, ?_⟩
  · split <;> omega
  · split <;> omega

theorem encodeChar_cases (c : Char) :
    (∃ b, encodeChar c = [b] ∧ start b = ([.scalar c], none)) ∨
      ∃ b p, encodeChar c = b :: continuation (p.more + 1) c.toNat ∧
        start b = ([], some p) ∧ p.Fits c.toNat := by
  have hvalid : c.toNat.isValidChar := c.valid
  have hbound : c.toNat < 0x110000 := by
    unfold Nat.isValidChar at hvalid
    omega
  have htoNat {n : Nat} (hn : n < 0x100) : (UInt8.ofNat n).toNat = n :=
    UInt8.toNat_ofNat_of_lt' hn
  unfold encodeChar
  simp only
  by_cases h1 : c.toNat < 0x80
  · have hb := htoNat (n := c.toNat) (by omega)
    refine .inl ⟨_, if_pos h1, ?_⟩
    rw [start_of_lt (by omega), hb, Char.ofNat_toNat]
  right
  rw [if_neg h1]
  by_cases h2 : c.toNat < 0x800
  · have hb := htoNat (n := 0xC0 + c.toNat / 0x40) (by omega)
    rw [if_pos h2]
    exact ⟨_, _, by simp [Pending.two, continuation], start_of_two (by omega) (by omega),
      fits_two (by omega) h2⟩
  rw [if_neg h2]
  by_cases h3 : c.toNat < 0x10000
  · have hb := htoNat (n := 0xE0 + c.toNat / 0x1000) (by omega)
    rw [if_pos h3]
    exact ⟨_, _, by simp [Pending.three, continuation], start_of_three (by omega) (by omega),
      fits_three hvalid (by omega) h3⟩
  · have hb := htoNat (n := 0xF0 + c.toNat / 0x40000) (by omega)
    rw [if_neg h3]
    exact ⟨_, _, by simp [Pending.four, continuation], start_of_four (by omega) (by omega),
      fits_four hvalid (by omega)⟩

theorem segmentsFrom_continuation {c : Char} {p : Pending} {k : Nat} (hmore : p.more = k)
    (hp : p.Fits c.toNat) (rest : Bytes) :
    segmentsFrom (some p) (continuation (k + 1) c.toNat ++ rest) =
      .scalar c :: segmentsFrom none rest := by
  induction k generalizing p with
  | zero =>
      obtain ⟨hvalue, hlow, hhigh⟩ := hp
      rw [hmore] at hvalue hlow hhigh
      simp only [Nat.zero_add, Nat.pow_one, Nat.pow_zero, Nat.div_one] at hvalue hlow hhigh
      have hb : (UInt8.ofNat (0x80 + c.toNat % 0x40)).toNat = 0x80 + c.toNat % 0x40 :=
        UInt8.toNat_ofNat_of_lt' (by simp only [UInt8.size]; omega)
      have hwhole : p.value * 0x40 + (0x80 + c.toNat % 0x40 - 0x80) = c.toNat := by omega
      rw [continuation, Nat.pow_zero, Nat.div_one, continuation, List.singleton_append,
        segmentsFrom, feed_last hmore (by omega) (by omega), hb, hwhole, Char.ofNat_toNat]
      rfl
  | succ k ih =>
      obtain ⟨hvalue, hlow, hhigh⟩ := hp
      rw [hmore] at hvalue hlow hhigh
      have hb : (UInt8.ofNat (0x80 + c.toNat / 0x40 ^ (k + 1) % 0x40)).toNat =
          0x80 + c.toNat / 0x40 ^ (k + 1) % 0x40 :=
        UInt8.toNat_ofNat_of_lt' (by simp only [UInt8.size]; omega)
      rw [continuation, List.cons_append, segmentsFrom,
        feed_push hmore (by omega) (by omega)]
      refine ih rfl ⟨?_, ?_, ?_⟩
      · have hdown : c.toNat / 0x40 ^ (k + 1 + 1) = c.toNat / 0x40 ^ (k + 1) / 0x40 := by
          rw [Nat.div_div_eq_div_mul, ← Nat.pow_succ]
        simp only [Pending.push, hb]
        omega
      · simp only [Pending.push]
        omega
      · simp only [Pending.push]
        omega

theorem segmentsFrom_encodeChar_append (c : Char) (rest : Bytes) :
    segmentsFrom none (encodeChar c ++ rest) = .scalar c :: segmentsFrom none rest := by
  rcases encodeChar_cases c with ⟨b, hc, hstart⟩ | ⟨b, p, hc, hstart, hp⟩
  · rw [hc, List.singleton_append, segmentsFrom, feed, hstart]
    rfl
  · rw [hc, List.cons_append, segmentsFrom, feed, hstart]
    exact segmentsFrom_continuation rfl hp rest

theorem segments_encode_append (t : Text) (rest : Bytes) :
    segments (encode t ++ rest) = t.map .scalar ++ segments rest := by
  unfold segments encode
  induction t with
  | nil => rfl
  | cons c t ih =>
      rw [List.flatMap_cons, List.append_assoc, segmentsFrom_encodeChar_append, ih, List.map_cons,
        List.cons_append]

theorem segments_encode (t : Text) : segments (encode t) = t.map .scalar := by
  simpa [segments, segmentsFrom] using segments_encode_append t []

/-! ## Both directions -/

theorem collect_map_scalar (offset : Nat) (t : Text) :
    collect offset (t.map .scalar) = .ok t := by
  induction t generalizing offset with
  | nil => rfl
  | cons c t ih => simp [collect, ih, Except.map]

theorem eq_map_of_collect_eq_ok {offset : Nat} {ss : List Segment} {t : Text}
    (hcollect : collect offset ss = .ok t) : ss = t.map .scalar := by
  induction ss generalizing offset t with
  | nil =>
      obtain rfl := Except.ok.inj hcollect
      rfl
  | cons s ss ih =>
      cases s with
      | illFormed run reason => simp [collect] at hcollect
      | scalar c =>
          rw [collect] at hcollect
          cases hrest : collect (offset + (encodeChar c).length) ss with
          | error fault => simp [hrest, Except.map] at hcollect
          | ok u =>
              rw [hrest] at hcollect
              obtain rfl := Except.ok.inj hcollect
              rw [ih hrest, List.map_cons]

theorem flatMap_bytes_map_scalar (t : Text) :
    (t.map Segment.scalar).flatMap Segment.bytes = encode t := by
  rw [List.flatMap_map]
  rfl

theorem decode_eq_ok_iff {bs : Bytes} {t : Text} : decode bs = .ok t ↔ bs = encode t := by
  constructor
  · intro hdecode
    have hsegments := eq_map_of_collect_eq_ok hdecode
    calc
      bs = (segments bs).flatMap Segment.bytes := (flatMap_bytes_segments bs).symm
      _ = encode t := by rw [hsegments, flatMap_bytes_map_scalar]
  · rintro rfl
    rw [decode, segments_encode, collect_map_scalar]

theorem decode_encode (t : Text) : decode (encode t) = .ok t :=
  decode_eq_ok_iff.mpr rfl

theorem encode_inj {t u : Text} : encode t = encode u ↔ t = u := by
  constructor
  · intro h
    have hdecode := decode_encode t
    rw [h, decode_encode] at hdecode
    exact (Except.ok.inj hdecode).symm
  · rintro rfl
    rfl

/-- Bytes that begin with a whole text end with a whole text. -/
theorem exists_encode_of_append {t u : Text} {rest : Bytes}
    (happend : encode t ++ rest = encode u) :
    ∃ more, u = t ++ more ∧ rest = encode more := by
  have hsegments : u.map Segment.scalar = t.map .scalar ++ segments rest := by
    rw [← segments_encode_append, happend, segments_encode]
  obtain ⟨start, more, rfl, hstart, hmore⟩ := List.map_eq_append_iff.mp hsegments
  obtain rfl : start = t := by
    have hencode := congrArg (List.flatMap Segment.bytes) hstart
    rwa [flatMap_bytes_map_scalar, flatMap_bytes_map_scalar, encode_inj] at hencode
  refine ⟨more, rfl, ?_⟩
  rw [← flatMap_bytes_segments rest, ← hmore, flatMap_bytes_map_scalar]

end EmulationBindings.Utf8
