import EmulationBindings.Lookup
import EmulationBindings.Proofs.Table.Window
import EmulationBindings.Proofs.Text.Lines

/-!
# Scanners side by side

Scanners that take their lines in turns, each under a number of its own, do not see each other:
what is reported under a number is what one scanner reports that takes only the lines under this
number.  At each moment its names are those of the table in the text that these lines make, also
when the table has ended and lines still come.
-/

namespace EmulationBindings.Table

/-- What stands under one number, in order. -/
def underNumber {α : Type} (id : Int) (entries : List (Int × α)) : List α :=
  (entries.filter fun e => e.1 = id).map Prod.snd

theorem underNumber_cons_self {α : Type} (id : Int) (a : α) (entries : List (Int × α)) :
    underNumber id ((id, a) :: entries) = a :: underNumber id entries := by
  simp [underNumber]

theorem underNumber_cons_of_ne {α : Type} {id other : Int} (hne : other ≠ id) (a : α)
    (entries : List (Int × α)) :
    underNumber id ((other, a) :: entries) = underNumber id entries := by
  simp [underNumber, hne]

theorem underNumber_append {α : Type} (id : Int) (entries more : List (Int × α)) :
    underNumber id (entries ++ more) = underNumber id entries ++ underNumber id more := by
  simp [underNumber]

namespace Scanners

variable (r : Recipe) (t : Scanners)

theorem get_put_self (id : Int) (s : Scanner) : (t.put id s).get id = s := by
  simp [get, put]

theorem get_put_of_ne {id other : Int} (hne : other ≠ id) (s : Scanner) :
    (t.put other s).get id = t.get id := by
  have hhead : (id == other) = false := beq_eq_false_iff_ne.mpr hne.symm
  have hkept : decide (id ≠ other) = true := decide_eq_true hne.symm
  have hrest := lookup_filter_of_kept (fun key => key ≠ other) t hkept
  simp only [get, put, List.lookup_cons, hhead]
  rw [hrest]

/-- A line goes to the scanner of its number and to no other. -/
theorem get_feed (other id : Int) (line : Text) :
    (t.feed r other line).get id =
      (underNumber id [(other, line)]).foldl (Scanner.feed r) (t.get id) := by
  unfold feed
  by_cases hid : other = id
  · subst hid
    rw [get_put_self, underNumber_cons_self]
    rfl
  · rw [get_put_of_ne t hid, underNumber_cons_of_ne hid]
    rfl

theorem map_fst_trace (steps : List (Int × Text)) :
    (trace r t steps).map Prod.fst = steps.map Prod.fst := by
  induction steps generalizing t with
  | nil => rfl
  | cons step rest ih => rw [trace, List.map_cons, List.map_cons, ih]

/-- The scanner that a number starts with and those reported under it are the states of one
scanner that takes the lines under this number. -/
theorem get_cons_underNumber_trace (id : Int) (steps : List (Int × Text)) :
    t.get id :: underNumber id (trace r t steps) =
      (underNumber id steps).scanl (Scanner.feed r) (t.get id) := by
  induction steps generalizing t with
  | nil => rfl
  | cons step rest ih =>
      obtain ⟨other, line⟩ := step
      have hrest := ih (t.feed r other line)
      rw [get_feed] at hrest
      rw [trace]
      by_cases hid : other = id
      · subst hid
        rw [underNumber_cons_self] at hrest
        rw [underNumber_cons_self, underNumber_cons_self, List.scanl_cons]
        exact congrArg (t.get other :: ·) hrest
      · rw [underNumber_cons_of_ne hid] at hrest
        rw [underNumber_cons_of_ne hid, underNumber_cons_of_ne hid]
        exact hrest

/-- What is reported at a step has taken the lines under its number up to this step. -/
theorem eq_foldl_of_getElem?_trace {id : Int} {s : Scanner} {steps : List (Int × Text)} {n : ℕ}
    (hreport : (trace r t steps)[n]? = some (id, s)) :
    underNumber id (steps.take (n + 1)) ≠ [] ∧
      s = (underNumber id (steps.take (n + 1))).foldl (Scanner.feed r) (t.get id) := by
  induction steps generalizing t n with
  | nil => simp [trace] at hreport
  | cons step rest ih =>
      obtain ⟨other, line⟩ := step
      rw [trace] at hreport
      cases n with
      | zero =>
          simp only [List.getElem?_cons_zero, Option.some.injEq, Prod.mk.injEq] at hreport
          obtain ⟨rfl, rfl⟩ := hreport
          simp [underNumber]
      | succ n =>
          rw [List.getElem?_cons_succ] at hreport
          obtain ⟨hsome, hs⟩ := ih (t.feed r other line) hreport
          rw [get_feed, ← List.foldl_append] at hs
          have hcut : underNumber id (((other, line) :: rest).take (n + 1 + 1)) =
              underNumber id [(other, line)] ++ underNumber id (rest.take (n + 1)) :=
            underNumber_append id [(other, line)] (rest.take (n + 1))
          rw [hcut]
          exact ⟨List.append_ne_nil_of_right_ne_nil _ hsome, hs⟩

end Scanners

theorem names_foldl_feed (r : Recipe) {ls : List Text} (hne : ls ≠ [])
    (hplain : ∀ line ∈ ls, '\n' ∉ line ∧ line.getLast? ≠ some '\r') :
    (ls.foldl (Scanner.feed r) {}).names = systemNames r (List.intercalate ['\n'] ls) := by
  rw [systemNames, scanSystems, Scanner.feedAll_eq_foldl, Text.lines_intercalate hne hplain]

/-- Every step reports under its own number.  A fresh scanner and what is reported under a number
are the states of one scanner that takes the lines under this number, and the names at a step are
those in the text of these lines up to it. -/
theorem interleaved_scanners_read_own_lines (r : Recipe) (steps : List (Int × Text)) :
    (Scanners.trace r [] steps).map Prod.fst = steps.map Prod.fst ∧
    (∀ id, {} :: underNumber id (Scanners.trace r [] steps) =
      (underNumber id steps).scanl (Scanner.feed r) {}) ∧
    ∀ n id s, (Scanners.trace r [] steps)[n]? = some (id, s) →
      (∀ line ∈ underNumber id (steps.take (n + 1)),
        '\n' ∉ line ∧ line.getLast? ≠ some '\r') →
      s.names =
        systemNames r (List.intercalate ['\n'] (underNumber id (steps.take (n + 1)))) := by
  refine ⟨Scanners.map_fst_trace r [] steps,
    fun id => Scanners.get_cons_underNumber_trace r [] id steps, fun n id s hreport hplain => ?_⟩
  obtain ⟨hne, hs⟩ := Scanners.eq_foldl_of_getElem?_trace r [] hreport
  rw [hs]
  exact names_foldl_feed r hne hplain

/-- Two tables in turns.  The first one ends before its last line comes, the second does not end,
and a carriage return inside one of its lines stays there. -/
theorem interleaved_scanners_read_own_lines_of_two_tables :
    let r := Recipe.standard
    let steps : List (Int × Text) := [(1, "plain,"), (-2, "plain,"), (1, "EmulationOS"),
      (1, "L => \"linux\","), (-2, "EmulationOS"), (-2, "A => \"a\rb\","), (1, ");"),
      (1, "W => \"windows\","), (-2, "C => \"c\",")]
    (Scanners.trace r [] steps)[7]? = some (1, ⟨.done, ["linux"]⟩) ∧
      (∀ line ∈ underNumber 1 (steps.take 8), '\n' ∉ line ∧ line.getLast? ≠ some '\r') ∧
      systemNames r (List.intercalate ['\n'] (underNumber 1 (steps.take 8))) =
        [("linux" : Text)] ∧
    (Scanners.trace r [] steps)[8]? = some (-2, ⟨.inside, ["a\rb", "c"]⟩) ∧
      (∀ line ∈ underNumber (-2) (steps.take 9), '\n' ∉ line ∧ line.getLast? ≠ some '\r') ∧
      systemNames r (List.intercalate ['\n'] (underNumber (-2) (steps.take 9))) =
        [("a\rb" : Text), ("c" : Text)] := by
  intro r steps
  have hread := (interleaved_scanners_read_own_lines r steps).2.2
  have hended : (Scanners.trace r [] steps)[7]? = some (1, ⟨.done, ["linux"]⟩) := by
    decide +kernel
  have hopen : (Scanners.trace r [] steps)[8]? = some (-2, ⟨.inside, ["a\rb", "c"]⟩) := by
    decide +kernel
  have hfirst : ∀ line ∈ underNumber 1 (steps.take 8),
      '\n' ∉ line ∧ line.getLast? ≠ some '\r' := by decide +kernel
  have hsecond : ∀ line ∈ underNumber (-2) (steps.take 9),
      '\n' ∉ line ∧ line.getLast? ≠ some '\r' := by decide +kernel
  exact ⟨hended, hfirst, (hread 7 1 _ hended hfirst).symm,
    hopen, hsecond, (hread 8 (-2) _ hopen hsecond).symm⟩

end EmulationBindings.Table
