import EmulationBindings.Table.Scanner
import Mathlib.Order.Bounds.Basic

/-!
# The block of operating systems

A scanner sees one line at a time.  Here its end is described without running it, by three
searches in the whole list of lines, each for the least position after the one found before: the
sentinel, the line that opens the block, and the line that ends it.  The names are those of the
lines strictly between the last two.
-/

namespace EmulationBindings.Table

/-- The positions from `start` on whose line has the property. -/
def linesFrom (ls : List Text) (start : ℕ) (p : Text → Bool) : Set ℕ :=
  {i | start ≤ i ∧ ∃ line ∈ ls[i]?, p line}

instance (ls : List Text) (start : ℕ) (p : Text → Bool) (i : ℕ) :
    Decidable (i ∈ linesFrom ls start p) :=
  inferInstanceAs (Decidable (start ≤ i ∧ ∃ line ∈ ls[i]?, p line))

def isSentinel (r : Recipe) (line : Text) : Bool := Text.occurs r.plainMarker line

def opensBlock (r : Recipe) (line : Text) : Bool :=
  Text.occurs r.systemType line && !Text.occurs r.plainMarker line

def endsBlock (r : Recipe) (line : Text) : Bool := Text.occurs r.blockEnd line

/-- The names on the lines after position `j` and before position `k`. -/
def namesBetween (r : Recipe) (ls : List Text) (j k : ℕ) : List Text :=
  ((ls.take k).drop (j + 1)).filterMap (quotedAfter? r.systemMarker)

theorem isLeast_linesFrom_of_forall_lt
    {ls : List Text} {start i : ℕ} {p : Text → Bool}
    (hi : i ∈ linesFrom ls start p)
    (hbelow : ∀ m < i, m ∉ linesFrom ls start p) :
    IsLeast (linesFrom ls start p) i := by
  refine ⟨hi, fun m hm => ?_⟩
  by_contra hlt
  exact hbelow m (Nat.lt_of_not_le hlt) hm

theorem linesFrom_eq_empty_of_forall_lt
    {ls : List Text} {start : ℕ} {p : Text → Bool}
    (hnone : ∀ m < ls.length, m ∉ linesFrom ls start p) :
    linesFrom ls start p = ∅ := by
  rw [Set.eq_empty_iff_forall_notMem]
  intro m hm
  obtain ⟨-, line, hline, -⟩ := id hm
  have hlt : m < ls.length := (List.getElem?_eq_some_iff.mp hline).1
  exact hnone m hlt hm

/-! ## Cutting the lines at a position -/

theorem not_of_mem_drop_of_linesFrom_eq_empty
    {ls : List Text} {start : ℕ} {p : Text → Bool}
    (hnone : linesFrom ls start p = ∅) :
    ∀ line ∈ ls.drop start, p line = false := by
  intro line hmem
  obtain ⟨m, hm⟩ := List.mem_iff_getElem?.mp hmem
  rw [List.getElem?_drop] at hm
  by_contra hp
  have hplace : start + m ∈ linesFrom ls start p :=
    ⟨Nat.le_add_right start m, line, hm, by simpa using hp⟩
  rw [hnone] at hplace
  exact hplace

theorem drop_eq_of_isLeast_linesFrom
    {ls : List Text} {start i : ℕ} {p : Text → Bool}
    (hleast : IsLeast (linesFrom ls start p) i) :
    ∃ line, p line = true ∧
      ls.drop start = (ls.take i).drop start ++ line :: ls.drop (i + 1) ∧
      ∀ before ∈ (ls.take i).drop start, p before = false := by
  obtain ⟨⟨hstart, line, hline, hp⟩, hbelow⟩ := hleast
  refine ⟨line, hp, ?_, ?_⟩
  · obtain ⟨hi, rfl⟩ := List.getElem?_eq_some_iff.mp hline
    have hlen : start ≤ (ls.take i).length := by
      rw [List.length_take]
      omega
    calc
      ls.drop start = (ls.take i ++ ls.drop i).drop start := by
          rw [List.take_append_drop]
      _ = (ls.take i).drop start ++ ls.drop i :=
          List.drop_append_of_le_length hlen
      _ = (ls.take i).drop start ++ ls[i] :: ls.drop (i + 1) := by
          rw [List.drop_eq_getElem_cons hi]
  · intro before hmem
    obtain ⟨m, hm⟩ := List.mem_iff_getElem?.mp hmem
    rw [List.getElem?_drop, List.getElem?_take] at hm
    split at hm
    · next hlt =>
      by_contra hbefore
      have hplace : start + m ∈ linesFrom ls start p :=
        ⟨Nat.le_add_right start m, before, hm, by simpa using hbefore⟩
      have hle := hbelow hplace
      omega
    · simp at hm

namespace Scanner

/-! ## What a stretch of lines does in each phase -/

theorem foldl_feed_seeking {r : Recipe} {ls : List Text} (names : List Text)
    (hnone : ∀ line ∈ ls, isSentinel r line = false) :
    ls.foldl (feed r) ⟨.seeking, names⟩ = ⟨.seeking, names⟩ := by
  induction ls with
  | nil => rfl
  | cons line rest ih =>
      have hline : Text.occurs r.plainMarker line = false :=
        hnone line List.mem_cons_self
      have hstep : feed r ⟨.seeking, names⟩ line = ⟨.seeking, names⟩ := by
        simp [feed, hline]
      rw [List.foldl_cons, hstep]
      exact ih fun l hl => hnone l (List.mem_cons_of_mem line hl)

theorem foldl_feed_awaiting {r : Recipe} {ls : List Text} (names : List Text)
    (hnone : ∀ line ∈ ls, opensBlock r line = false) :
    ls.foldl (feed r) ⟨.awaiting, names⟩ = ⟨.awaiting, names⟩ := by
  induction ls with
  | nil => rfl
  | cons line rest ih =>
      have hline := hnone line List.mem_cons_self
      unfold opensBlock at hline
      have hstep : feed r ⟨.awaiting, names⟩ line = ⟨.awaiting, names⟩ := by
        simp only [feed]
        rw [Bool.and_comm, hline]
        simp
      rw [List.foldl_cons, hstep]
      exact ih fun l hl => hnone l (List.mem_cons_of_mem line hl)

theorem foldl_feed_inside {r : Recipe} {ls : List Text} (names : List Text)
    (hnone : ∀ line ∈ ls, endsBlock r line = false) :
    ls.foldl (feed r) ⟨.inside, names⟩ =
      ⟨.inside, names ++ ls.filterMap (quotedAfter? r.systemMarker)⟩ := by
  induction ls generalizing names with
  | nil => simp
  | cons line rest ih =>
      have hline : Text.occurs r.blockEnd line = false :=
        hnone line List.mem_cons_self
      have hstep : feed r ⟨.inside, names⟩ line =
          ⟨.inside, names ++ (quotedAfter? r.systemMarker line).toList⟩ := by
        simp [feed, hline]
      rw [List.foldl_cons, hstep,
        ih _ fun l hl => hnone l (List.mem_cons_of_mem line hl)]
      cases hname : quotedAfter? r.systemMarker line <;>
        simp [hname]

theorem foldl_feed_done (r : Recipe) (ls names : List Text) :
    ls.foldl (feed r) ⟨.done, names⟩ = ⟨.done, names⟩ := by
  induction ls with
  | nil => rfl
  | cons line rest ih => exact ih

/-- Stopping at the end of the block loses nothing, since no later line changes the scanner. -/
theorem feedAll_eq_foldl (r : Recipe) (s : Scanner) (ls : List Text) :
    s.feedAll r ls = ls.foldl (feed r) s := by
  induction ls generalizing s with
  | nil => rfl
  | cons line rest ih =>
      simp only [feedAll, List.foldl_cons]
      cases hs : s.feed r line with
      | mk phase names =>
          by_cases hdone : phase = .done
          · subst hdone
            rw [if_pos rfl, foldl_feed_done]
          · rw [if_neg hdone, ih]

/-! ## From one phase to the next -/

theorem foldl_feed_of_isLeast_sentinel
    {r : Recipe} {ls : List Text} {i : ℕ}
    (hi : IsLeast (linesFrom ls 0 (isSentinel r)) i) :
    ls.foldl (feed r) {} = (ls.drop (i + 1)).foldl (feed r) ⟨.awaiting, []⟩ := by
  obtain ⟨line, hline, hcut, hbefore⟩ := drop_eq_of_isLeast_linesFrom hi
  have hstep : feed r ⟨.seeking, []⟩ line = ⟨.awaiting, []⟩ := by
    unfold isSentinel at hline
    simp [feed, hline]
  rw [List.drop_zero] at hcut
  rw [hcut, List.foldl_append, foldl_feed_seeking [] hbefore,
    List.foldl_cons, hstep, ← hcut]

theorem foldl_feed_of_isLeast_opening
    {r : Recipe} {ls : List Text} {i j : ℕ}
    (hj : IsLeast (linesFrom ls (i + 1) (opensBlock r)) j) :
    (ls.drop (i + 1)).foldl (feed r) ⟨.awaiting, []⟩ =
      (ls.drop (j + 1)).foldl (feed r) ⟨.inside, []⟩ := by
  obtain ⟨line, hline, hcut, hbefore⟩ := drop_eq_of_isLeast_linesFrom hj
  have hstep : feed r ⟨.awaiting, []⟩ line = ⟨.inside, []⟩ := by
    unfold opensBlock at hline
    rw [Bool.and_comm] at hline
    simp only [feed, hline, if_true]
  rw [hcut, List.foldl_append, foldl_feed_awaiting [] hbefore,
    List.foldl_cons, hstep]

theorem foldl_feed_of_isLeast_ending
    {r : Recipe} {ls : List Text} {j k : ℕ}
    (hk : IsLeast (linesFrom ls (j + 1) (endsBlock r)) k) :
    (ls.drop (j + 1)).foldl (feed r) ⟨.inside, []⟩ =
      ⟨.done, namesBetween r ls j k⟩ := by
  obtain ⟨line, hline, hcut, hbefore⟩ := drop_eq_of_isLeast_linesFrom hk
  have hstep (names : List Text) :
      feed r ⟨.inside, names⟩ line = ⟨.done, names⟩ := by
    unfold endsBlock at hline
    simp [feed, hline]
  rw [hcut, List.foldl_append, foldl_feed_inside [] hbefore,
    List.foldl_cons, hstep, foldl_feed_done, List.nil_append]
  rfl

end Scanner

/-- The scanner ends in the phase, and with the names, that the three searches say, and the names
found in a source are those for all its lines. -/
theorem scanner_reads_window (r : Recipe) :
    (∀ ls : List Text,
      (linesFrom ls 0 (isSentinel r) = ∅ →
        ls.foldl (Scanner.feed r) {} = ⟨.seeking, []⟩) ∧
      ∀ i, IsLeast (linesFrom ls 0 (isSentinel r)) i →
        (linesFrom ls (i + 1) (opensBlock r) = ∅ →
          ls.foldl (Scanner.feed r) {} = ⟨.awaiting, []⟩) ∧
        ∀ j, IsLeast (linesFrom ls (i + 1) (opensBlock r)) j →
          (linesFrom ls (j + 1) (endsBlock r) = ∅ →
            ls.foldl (Scanner.feed r) {} =
              ⟨.inside, namesBetween r ls j ls.length⟩) ∧
          ∀ k, IsLeast (linesFrom ls (j + 1) (endsBlock r)) k →
            ls.foldl (Scanner.feed r) {} = ⟨.done, namesBetween r ls j k⟩) ∧
    ∀ source : Text,
      systemNames r source =
        ((Text.lines source).foldl (Scanner.feed r) {}).names := by
  refine ⟨fun ls => ⟨?_, fun i hi => ?_⟩, fun source => ?_⟩
  · intro hnone
    exact Scanner.foldl_feed_seeking []
      (not_of_mem_drop_of_linesFrom_eq_empty hnone)
  · rw [Scanner.foldl_feed_of_isLeast_sentinel hi]
    refine ⟨fun hnone => ?_, fun j hj => ?_⟩
    · exact Scanner.foldl_feed_awaiting []
        (not_of_mem_drop_of_linesFrom_eq_empty hnone)
    · rw [Scanner.foldl_feed_of_isLeast_opening hj]
      refine ⟨fun hnone => ?_, fun k hk => ?_⟩
      · rw [Scanner.foldl_feed_inside []
          (not_of_mem_drop_of_linesFrom_eq_empty hnone)]
        simp [namesBetween]
      · exact Scanner.foldl_feed_of_isLeast_ending hk
  · rw [systemNames, scanSystems, Scanner.feedAll_eq_foldl]

/-- All four ends, on one table cut off at four places.  The sentinel comes twice, names the type,
and stands before arrows that open or end the block or come after it. -/
theorem scanner_reads_window_of_cut_table :
    let r := Recipe.standard
    let ls : List Text := [
      "=> \"first\"", "plain, EmulationOS", "plain, EmulationOS", "EmulationOS => \"second\"",
      "Windows => \"windows\",", "Linux => \"linux", "=> \"third\");", "=> \"fourth\""]
    linesFrom (ls.take 1) 0 (isSentinel r) = ∅ ∧
      (ls.take 1).foldl (Scanner.feed r) {} = ⟨.seeking, []⟩ ∧
    IsLeast (linesFrom (ls.take 3) 0 (isSentinel r)) 1 ∧
      linesFrom (ls.take 3) 2 (opensBlock r) = ∅ ∧
      (ls.take 3).foldl (Scanner.feed r) {} = ⟨.awaiting, []⟩ ∧
    IsLeast (linesFrom (ls.take 6) 0 (isSentinel r)) 1 ∧
      IsLeast (linesFrom (ls.take 6) 2 (opensBlock r)) 3 ∧
      linesFrom (ls.take 6) 4 (endsBlock r) = ∅ ∧
      (ls.take 6).foldl (Scanner.feed r) {} =
        ⟨.inside, namesBetween r (ls.take 6) 3 6⟩ ∧
    IsLeast (linesFrom ls 0 (isSentinel r)) 1 ∧
      IsLeast (linesFrom ls 2 (opensBlock r)) 3 ∧
      IsLeast (linesFrom ls 4 (endsBlock r)) 6 ∧
      ls.foldl (Scanner.feed r) {} = ⟨.done, namesBetween r ls 3 6⟩ ∧
      namesBetween r ls 3 6 = [("windows" : Text)] := by
  intro r ls
  have h1 : linesFrom (ls.take 1) 0 (isSentinel r) = ∅ :=
    linesFrom_eq_empty_of_forall_lt (by decide +kernel)
  have h3i : IsLeast (linesFrom (ls.take 3) 0 (isSentinel r)) 1 :=
    isLeast_linesFrom_of_forall_lt (by decide +kernel) (by decide +kernel)
  have h3 : linesFrom (ls.take 3) 2 (opensBlock r) = ∅ :=
    linesFrom_eq_empty_of_forall_lt (by decide +kernel)
  have h6i : IsLeast (linesFrom (ls.take 6) 0 (isSentinel r)) 1 :=
    isLeast_linesFrom_of_forall_lt (by decide +kernel) (by decide +kernel)
  have h6j : IsLeast (linesFrom (ls.take 6) 2 (opensBlock r)) 3 :=
    isLeast_linesFrom_of_forall_lt (by decide +kernel) (by decide +kernel)
  have h6 : linesFrom (ls.take 6) 4 (endsBlock r) = ∅ :=
    linesFrom_eq_empty_of_forall_lt (by decide +kernel)
  have hi : IsLeast (linesFrom ls 0 (isSentinel r)) 1 :=
    isLeast_linesFrom_of_forall_lt (by decide +kernel) (by decide +kernel)
  have hj : IsLeast (linesFrom ls 2 (opensBlock r)) 3 :=
    isLeast_linesFrom_of_forall_lt (by decide +kernel) (by decide +kernel)
  have hk : IsLeast (linesFrom ls 4 (endsBlock r)) 6 :=
    isLeast_linesFrom_of_forall_lt (by decide +kernel) (by decide +kernel)
  have hread := (scanner_reads_window r).1
  exact ⟨h1, (hread (ls.take 1)).1 h1,
    h3i, h3, ((hread (ls.take 3)).2 1 h3i).1 h3,
    h6i, h6j, h6, (((hread (ls.take 6)).2 1 h6i).2 3 h6j).1 h6,
    hi, hj, hk, (((hread ls).2 1 hi).2 3 hj).2 6 hk, by decide +kernel⟩

end EmulationBindings.Table
