import EmulationBindings.Proofs.Extraction
import EmulationBindings.Proofs.Table.Profiles
import EmulationBindings.Proofs.Table.Window
import Mathlib.Order.Nat

/-!
# Sources with both tables

Which sources yield documents can be read off their lines.  A profile is a line with its marker and
a quote after it.  An operating system is such a line in the block that the scanner walks to, and no
line from the start of the block up to it may end the block.  A source without the first, or else
without the second, is turned down by the gate for it, and nothing else stops it.
-/

namespace EmulationBindings.Text

theorem occurs_iff_isInfix {m t : Text} : occurs m t = true ↔ m <:+: t := by
  have hnone : occurs m t = false ↔ ¬ m <:+: t := by
    unfold occurs
    rw [Option.isSome_eq_false_iff, Option.isNone_iff_eq_none, cut?_eq_none_iff]
    simp [List.IsInfix, eq_comm]
  rw [← Bool.not_eq_false, hnone, not_not]

end EmulationBindings.Text

namespace EmulationBindings.Table

/-- Some line announces a profile. -/
def HasProfile (r : Recipe) (ls : List Text) : Prop :=
  ∃ line ∈ ls, Announces r.profileMarker line

/-- The line at `m` announces an operating system, in the block that opens at `j` after the sentinel
at `i`. -/
structure SystemAt (r : Recipe) (ls : List Text) (i j m : ℕ) : Prop where
  sentinel : IsLeast {i | ∃ line ∈ ls[i]?, r.plainMarker <:+: line} i
  opening : IsLeast
    {j | i < j ∧ ∃ line ∈ ls[j]?, r.systemType <:+: line ∧ ¬ r.plainMarker <:+: line} j
  after : j < m
  unended : ∀ n, j < n → n ≤ m → ∀ line ∈ ls[n]?, ¬ r.blockEnd <:+: line
  announced : ∃ line ∈ ls[m]?, Announces r.systemMarker line

def HasSystem (r : Recipe) (ls : List Text) : Prop := ∃ i j m, SystemAt r ls i j m

variable {r : Recipe} {ls : List Text}

/-! ## The three searches in terms of what the lines hold -/

theorem linesFrom_isSentinel :
    linesFrom ls 0 (isSentinel r) = {i | ∃ line ∈ ls[i]?, r.plainMarker <:+: line} := by
  unfold linesFrom isSentinel
  simp [Text.occurs_iff_isInfix]

theorem linesFrom_opensBlock (i : ℕ) :
    linesFrom ls (i + 1) (opensBlock r) =
      {j | i < j ∧ ∃ line ∈ ls[j]?, r.systemType <:+: line ∧ ¬ r.plainMarker <:+: line} := by
  ext j
  simp only [linesFrom, opensBlock, Set.mem_ofPred_eq, Nat.add_one_le_iff, Bool.and_eq_true,
    Bool.not_eq_true', ← Bool.not_eq_true, Text.occurs_iff_isInfix]

theorem endsBlock_eq_false_iff {line : Text} :
    endsBlock r line = false ↔ ¬ r.blockEnd <:+: line := by
  rw [endsBlock, ← Text.occurs_iff_isInfix, Bool.not_eq_true]

theorem linesFrom_eq_empty_or_isLeast (ls : List Text) (start : ℕ) (p : Text → Bool) :
    linesFrom ls start p = ∅ ∨ ∃ i, IsLeast (linesFrom ls start p) i := by
  rcases Set.eq_empty_or_nonempty (linesFrom ls start p) with hnone | hsome
  · exact .inl hnone
  · exact .inr ⟨_, hsome.isLeast_natFind⟩

/-! ## Tables that are not empty -/

theorem profileNames_ne_nil_iff {source : Text} :
    profileNames r source ≠ [] ↔ HasProfile r (Text.lines source) := by
  unfold profileNames HasProfile
  rw [ne_eq, List.filterMap_eq_nil_iff, not_forall]
  simp only [← isSome_quotedAfter?_iff, Option.isSome_iff_ne_none, not_forall, exists_prop]

theorem mem_namesBetween_iff {name : Text} {j k : ℕ} :
    name ∈ namesBetween r ls j k ↔
      ∃ m, j < m ∧ m < k ∧ ∃ line ∈ ls[m]?, Quotes r.systemMarker line name := by
  simp only [namesBetween, List.mem_filterMap, ← quotedAfter?_eq_some_iff]
  constructor
  · rintro ⟨line, hmem, hname⟩
    obtain ⟨m, hm⟩ := List.mem_iff_getElem?.mp hmem
    rw [List.getElem?_drop, List.getElem?_take] at hm
    split at hm
    · next hlt => exact ⟨j + 1 + m, by omega, hlt, line, hm, hname⟩
    · simp at hm
  · rintro ⟨m, hj, hk, line, hline, hname⟩
    refine ⟨line, List.mem_iff_getElem?.mpr ⟨m - (j + 1), ?_⟩, hname⟩
    rw [List.getElem?_drop, Nat.add_sub_cancel' hj, List.getElem?_take, if_pos hk]
    exact hline

/-- The names of an open block are those up to the line that ends it, or up to the last line. -/
theorem exists_names_eq_namesBetween (r : Recipe) (ls : List Text) (j : ℕ) :
    ∃ k, ((ls.drop (j + 1)).foldl (Scanner.feed r) ⟨.inside, []⟩).names = namesBetween r ls j k ∧
      ∀ m, j < m → m < ls.length →
        (m < k ↔ ∀ n, j < n → n ≤ m → ∀ line ∈ ls[n]?, endsBlock r line = false) := by
  rcases linesFrom_eq_empty_or_isLeast ls (j + 1) (endsBlock r) with hnone | ⟨k, hk⟩
  -- A block that no line ends is open up to the last line.
  · refine ⟨ls.length, ?_, fun m hj hm => ⟨fun _ n hn _ line hline => ?_, fun _ => hm⟩⟩
    · rw [Scanner.foldl_feed_inside [] (not_of_mem_drop_of_linesFrom_eq_empty hnone)]
      simp [namesBetween]
    · by_contra hends
      have hplace : n ∈ linesFrom ls (j + 1) (endsBlock r) :=
        ⟨hn, line, hline, by simpa using hends⟩
      rw [hnone] at hplace
      exact hplace
  · refine ⟨k, by rw [Scanner.foldl_feed_of_isLeast_ending hk], fun m hj _ => ⟨?_, fun hopen => ?_⟩⟩
    · intro hm n hn hle line hline
      by_contra hends
      have hplace : n ∈ linesFrom ls (j + 1) (endsBlock r) :=
        ⟨hn, line, hline, by simpa using hends⟩
      have hkn := hk.2 hplace
      omega
    · by_contra hle
      obtain ⟨hjk, line, hline, hends⟩ := hk.1
      rw [hopen k hjk (Nat.le_of_not_lt hle) line hline] at hends
      cases hends

theorem mem_names_inside_iff {name : Text} {j : ℕ} :
    name ∈ ((ls.drop (j + 1)).foldl (Scanner.feed r) ⟨.inside, []⟩).names ↔
      ∃ m, j < m ∧ (∀ n, j < n → n ≤ m → ∀ line ∈ ls[n]?, endsBlock r line = false) ∧
        ∃ line ∈ ls[m]?, Quotes r.systemMarker line name := by
  obtain ⟨k, hnames, hopen⟩ := exists_names_eq_namesBetween r ls j
  rw [hnames, mem_namesBetween_iff]
  refine exists_congr fun m => and_congr_right fun hj => and_congr_left fun ⟨line, hline, _⟩ => ?_
  exact hopen m hj (List.getElem?_eq_some_iff.mp hline).1

theorem mem_names_foldl_feed_iff {name : Text} :
    name ∈ (ls.foldl (Scanner.feed r) {}).names ↔
      ∃ i j m, SystemAt r ls i j m ∧ ∃ line ∈ ls[m]?, Quotes r.systemMarker line name := by
  constructor
  · intro hname
    rcases linesFrom_eq_empty_or_isLeast ls 0 (isSentinel r) with hnone | ⟨i, hi⟩
    · have hseeking : ls.foldl (Scanner.feed r) {} = ⟨.seeking, []⟩ :=
        Scanner.foldl_feed_seeking [] (not_of_mem_drop_of_linesFrom_eq_empty hnone)
      rw [hseeking] at hname
      cases hname
    rw [Scanner.foldl_feed_of_isLeast_sentinel hi] at hname
    rcases linesFrom_eq_empty_or_isLeast ls (i + 1) (opensBlock r) with hnone | ⟨j, hj⟩
    · rw [Scanner.foldl_feed_awaiting [] (not_of_mem_drop_of_linesFrom_eq_empty hnone)] at hname
      cases hname
    rw [Scanner.foldl_feed_of_isLeast_opening hj, mem_names_inside_iff] at hname
    obtain ⟨m, hm, hopen, line, hline, hquotes⟩ := hname
    rw [linesFrom_isSentinel] at hi
    rw [linesFrom_opensBlock] at hj
    simp only [endsBlock_eq_false_iff] at hopen
    exact ⟨i, j, m, ⟨hi, hj, hm, hopen, line, hline, hquotes.announces⟩, line, hline, hquotes⟩
  · rintro ⟨i, j, m, ⟨hi, hj, hm, hopen, -⟩, hquotes⟩
    rw [← linesFrom_isSentinel] at hi
    rw [← linesFrom_opensBlock] at hj
    simp only [← endsBlock_eq_false_iff] at hopen
    rw [Scanner.foldl_feed_of_isLeast_sentinel hi, Scanner.foldl_feed_of_isLeast_opening hj,
      mem_names_inside_iff]
    exact ⟨m, hm, hopen, hquotes⟩

theorem mem_systemNames_iff {source name : Text} :
    name ∈ systemNames r source ↔ ∃ i j m, SystemAt r (Text.lines source) i j m ∧
      ∃ line ∈ (Text.lines source)[m]?, Quotes r.systemMarker line name := by
  rw [systemNames, scanSystems, Scanner.feedAll_eq_foldl, mem_names_foldl_feed_iff]

theorem systemNames_ne_nil_iff {source : Text} :
    systemNames r source ≠ [] ↔ HasSystem r (Text.lines source) := by
  constructor
  · intro hsome
    obtain ⟨name, hname⟩ := List.exists_mem_of_ne_nil _ hsome
    obtain ⟨i, j, m, hsystem, -⟩ := mem_systemNames_iff.mp hname
    exact ⟨i, j, m, hsystem⟩
  · rintro ⟨i, j, m, hsystem⟩
    obtain ⟨line, hline, hannounces⟩ := hsystem.announced
    obtain ⟨name, hquotes⟩ := hannounces.exists_quotes
    exact List.ne_nil_of_mem
      (mem_systemNames_iff.mpr ⟨i, j, m, hsystem, line, hline, hquotes⟩)

end EmulationBindings.Table

namespace EmulationBindings.Tables

open EmulationBindings.Action

variable {r : Recipe} {source : Text}

theorem reads_generate (r : Recipe) (source : Text) :
    (generate r source).Reads fun _ => found r source >>= fun t => t.rendered r :=
  (reads_extract r source).bind fun t => reads_documents r t

theorem generate_of_profileNames_eq_nil (hprofiles : Table.profileNames r source = [])
    (w : World) :
    ((generate r source).result w).1 = .error (.failed (.noNames "profiles" r.dependency)) := by
  have hfound : found r source = .error (.failed (.noNames "profiles" r.dependency)) := by
    rw [found, if_pos hprofiles]
  rw [(reads_generate r source w).1, hfound]
  rfl

theorem generate_of_systemNames_eq_nil (hprofiles : Table.profileNames r source ≠ [])
    (hsystems : Table.systemNames r source = []) (w : World) :
    ((generate r source).result w).1 =
      .error (.failed (.noNames "operating systems" r.dependency)) := by
  have hfound : found r source =
      .error (.failed (.noNames "operating systems" r.dependency)) := by
    rw [found, if_neg hprofiles, if_pos hsystems]
  rw [(reads_generate r source w).1, hfound]
  rfl

theorem exists_generate_eq_ok (hprofiles : Table.profileNames r source ≠ [])
    (hsystems : Table.systemNames r source ≠ []) (w : World) :
    ∃ typeScript rust, ((generate r source).result w).1 = .ok (typeScript, rust) := by
  have hfound := found_eq_ok_iff.mpr ⟨hprofiles, hsystems, rfl⟩
  obtain ⟨typeScript, rust, hrendered⟩ := exists_rendered_of_found hfound
  refine ⟨typeScript, rust, ?_⟩
  rw [(reads_generate r source w).1, bind_of_eq_ok hfound, hrendered]

/-- A source yields both documents exactly when it has both tables.  One without a profile is turned
down for that, whatever else it has, one with a profile but no operating system for the other table,
and nothing is turned down in any other way. -/
theorem generate_accepts_both_tables (r : Recipe) (source : Text) (w : World) :
    ((∃ typeScript rust, ((generate r source).result w).1 = .ok (typeScript, rust)) ↔
      Table.HasProfile r (Text.lines source) ∧ Table.HasSystem r (Text.lines source)) ∧
    (¬ Table.HasProfile r (Text.lines source) →
      ∃ f, ((generate r source).result w).1 = .error (.failed f) ∧ f.stage = .emptyExtraction ∧
        f.message = "No profiles found in " ++ r.dependency ++ " source") ∧
    (Table.HasProfile r (Text.lines source) → ¬ Table.HasSystem r (Text.lines source) →
      ∃ f, ((generate r source).result w).1 = .error (.failed f) ∧ f.stage = .emptyExtraction ∧
        f.message = "No operating systems found in " ++ r.dependency ++ " source") ∧
    ∀ e, ((generate r source).result w).1 = .error e →
      ∃ f, e = .failed f ∧ f.stage = .emptyExtraction := by
  rw [← Table.profileNames_ne_nil_iff, ← Table.systemNames_ne_nil_iff]
  by_cases hprofiles : Table.profileNames r source = []
  · rw [generate_of_profileNames_eq_nil hprofiles w]
    refine ⟨by simp [hprofiles], fun _ => ⟨_, rfl, rfl, rfl⟩, fun h => absurd hprofiles h, ?_⟩
    rintro e ⟨⟩
    exact ⟨_, rfl, rfl⟩
  · by_cases hsystems : Table.systemNames r source = []
    · rw [generate_of_systemNames_eq_nil hprofiles hsystems w]
      refine ⟨by simp [hsystems], fun h => absurd hprofiles h, fun _ _ => ⟨_, rfl, rfl, rfl⟩, ?_⟩
      rintro e ⟨⟩
      exact ⟨_, rfl, rfl⟩
    · obtain ⟨typeScript, rust, hend⟩ := exists_generate_eq_ok hprofiles hsystems w
      rw [hend]
      exact ⟨by simp [hprofiles, hsystems], fun h => absurd hprofiles h,
        fun _ h => absurd hsystems h, by simp⟩

/-- A table with all that can mislead the scanner before its one entry, a table without profiles,
and one whose only entry stands on the line that ends the block. -/
theorem generate_accepts_both_tables_of_three_sources :
    let r := Recipe.standard
    let w : World := { disk := .empty }
    let whole : Text :=
      "A => (\"a\"\nplain, EmulationOS\nEmulationOS plain,\n);\nEmulationOS => \"b\"\n=> \"c\""
    let noProfile : Text := "A => (a)\nplain,\nEmulationOS\nL => \"linux\""
    let noSystem : Text := "A => (\"a\"\nplain,\nEmulationOS\nL => \"linux\");"
    (Table.HasProfile r (Text.lines whole) ∧ Table.HasSystem r (Text.lines whole) ∧
      ∃ typeScript rust, ((generate r whole).result w).1 = .ok (typeScript, rust)) ∧
    (¬ Table.HasProfile r (Text.lines noProfile) ∧
      ∃ f, ((generate r noProfile).result w).1 = .error (.failed f) ∧
        f.stage = .emptyExtraction ∧ f.message = "No profiles found in wreq-util source") ∧
    Table.HasProfile r (Text.lines noSystem) ∧ ¬ Table.HasSystem r (Text.lines noSystem) ∧
      ∃ f, ((generate r noSystem).result w).1 = .error (.failed f) ∧
        f.stage = .emptyExtraction ∧
        f.message = "No operating systems found in wreq-util source" := by
  intro r w whole noProfile noSystem
  have hprofile : Table.HasProfile r (Text.lines whole) :=
    Table.profileNames_ne_nil_iff.mp (by decide +kernel)
  have hsystem : Table.HasSystem r (Text.lines whole) :=
    Table.systemNames_ne_nil_iff.mp (by decide +kernel)
  have hnoProfile : ¬ Table.HasProfile r (Text.lines noProfile) :=
    Table.profileNames_ne_nil_iff.not.mp (by decide +kernel)
  have hprofile' : Table.HasProfile r (Text.lines noSystem) :=
    Table.profileNames_ne_nil_iff.mp (by decide +kernel)
  have hnoSystem : ¬ Table.HasSystem r (Text.lines noSystem) :=
    Table.systemNames_ne_nil_iff.not.mp (by decide +kernel)
  have hwhole := (generate_accepts_both_tables r whole w).1.mpr ⟨hprofile, hsystem⟩
  obtain ⟨f, hf, hstage, hmessage⟩ :=
    (generate_accepts_both_tables r noProfile w).2.1 hnoProfile
  obtain ⟨f', hf', hstage', hmessage'⟩ :=
    (generate_accepts_both_tables r noSystem w).2.2.1 hprofile' hnoSystem
  exact ⟨⟨hprofile, hsystem, hwhole⟩, ⟨hnoProfile, f, hf, hstage, hmessage⟩,
    hprofile', hnoSystem, f', hf', hstage', hmessage'⟩

end EmulationBindings.Tables
