import EmulationBindings.Path.Basic
import EmulationBindings.Proofs.Text.Lines

/-!
# Paths and their texts

The names of a path that has been read are never empty, never a dot, and hold no slash.  Such a
path is written in a way that gives it back when it is read, so nothing is lost or gained between
a path and its text.
-/

namespace EmulationBindings.Path

/-- No name is one that reading drops, or can be taken for two. -/
def Plain (p : Path) : Prop := ∀ name ∈ p.names, name ≠ [] ∧ name ≠ dot ∧ '/' ∉ name

def IsAbsolute (p : Path) : Prop := p.anchor ≠ .relative

variable {p q : Path}

theorem plain_ofText (t : Text) : (ofText t).Plain := by
  intro name hname
  obtain ⟨hpiece, hkept⟩ := List.mem_filter.mp hname
  obtain ⟨hempty, hdot⟩ := of_decide_eq_true hkept
  exact ⟨hempty, hdot, Text.not_mem_of_mem_splitOn hpiece⟩

theorem Plain.of_subset (hp : p.Plain) (hsub : q.names ⊆ p.names) : q.Plain :=
  fun name hname => hp name (hsub hname)

theorem Plain.join (hp : p.Plain) (hq : q.Plain) : (p.join q).Plain := by
  unfold Path.join
  split
  · intro name hname
    rcases List.mem_append.mp hname with hname | hname
    · exact hp name hname
    · exact hq name hname
  · exact hq

theorem isAbsolute_ofText_iff (t : Text) : (ofText t).IsAbsolute ↔ t.head? = some '/' := by
  unfold IsAbsolute ofText anchorOf
  cases t with
  | nil => simp
  | cons c t =>
      by_cases hc : c = '/'
      · subst hc
        rw [List.takeWhile_cons_of_pos (by simp), List.length_cons]
        -- One slash, two, and more than two.
        match (t.takeWhile (· = '/')).length with
        | 0 => simp
        | 1 => simp
        | n + 2 => simp
      · simp [hc]

theorem isAbsolute_join_iff : (p.join q).IsAbsolute ↔ p.IsAbsolute ∨ q.IsAbsolute := by
  unfold IsAbsolute Path.join
  split
  · next hq => simp [hq]
  · next hq => simp [hq]

theorem join_assoc (p q r : Path) : (p.join q).join r = p.join (q.join r) := by
  unfold Path.join
  by_cases hr : r.anchor = .relative
  · by_cases hq : q.anchor = .relative <;> simp [hr, hq]
  · simp [hr]

theorem join_empty (p : Path) : p.join ⟨.relative, []⟩ = p := by
  simp [Path.join]

/-! ## Reading what is written -/

theorem namesOf_cons_slash (t : Text) : namesOf ('/' :: t) = namesOf t := by
  have hsplit : ('/' :: t).splitOn '/' = [] :: t.splitOn '/' :=
    List.splitOn_append_cons_self_of_not_mem List.not_mem_nil t
  rw [namesOf, hsplit]
  rfl

theorem namesOf_intercalate (hp : p.Plain) : namesOf (List.intercalate "/" p.names) = p.names := by
  by_cases hnames : p.names = []
  · rw [hnames]
    rfl
  · have hsplit : (List.intercalate "/" p.names).splitOn '/' = p.names :=
      List.splitOn_intercalate '/' (fun name hname => (hp name hname).2.2) hnames
    rw [namesOf, hsplit, List.filter_eq_self]
    intro name hname
    exact decide_eq_true ⟨(hp name hname).1, (hp name hname).2.1⟩

theorem namesOf_anchor_append (anchor : Anchor) (t : Text) :
    namesOf (anchor.text ++ t) = namesOf t := by
  cases anchor with
  | relative => rfl
  | root => exact namesOf_cons_slash t
  | doubleRoot => exact (namesOf_cons_slash ('/' :: t)).trans (namesOf_cons_slash t)

theorem head?_intercalate_ne (hp : p.Plain) :
    (List.intercalate ("/" : Text) p.names).head? ≠ some '/' := by
  unfold Plain at hp
  cases hnames : p.names with
  | nil => simp
  | cons name rest =>
      obtain ⟨hempty, -, hslash⟩ := hp name (by simp [hnames])
      obtain ⟨c, tail, rfl⟩ := List.exists_cons_of_ne_nil hempty
      have hc : c ≠ '/' := by
        rintro rfl
        exact hslash List.mem_cons_self
      cases rest with
      | nil => simpa using hc
      | cons next rest => simpa [List.intercalate_cons_cons] using hc

theorem anchorOf_append (anchor : Anchor) {t : Text} (ht : t.head? ≠ some '/') :
    anchorOf (anchor.text ++ t) = anchor := by
  have hnone : t.takeWhile (· = '/') = [] := by
    cases t with
    | nil => rfl
    | cons c rest =>
        have hc : c ≠ '/' := by simpa using ht
        simp [hc]
  cases anchor with
  | relative => simp [anchorOf, Anchor.text, hnone]
  | root => simp [anchorOf, Anchor.text, hnone]
  | doubleRoot => simp [anchorOf, Anchor.text, hnone]

theorem ofText_text (hp : p.Plain) : ofText p.text = p := by
  unfold text
  split
  · next hempty =>
    obtain ⟨anchor, names⟩ := p
    obtain ⟨rfl, rfl⟩ : anchor = .relative ∧ names = [] := hempty
    decide
  · rw [ofText, anchorOf_append p.anchor (head?_intercalate_ne hp), namesOf_anchor_append,
      namesOf_intercalate hp]

theorem text_eq_dot_iff (hp : p.Plain) : p.text = dot ↔ p = ⟨.relative, []⟩ := by
  constructor
  · intro hdot
    rw [← ofText_text hp, hdot]
    decide
  · rintro rfl
    rfl

/-! ## What a path's text holds -/

theorem mem_intercalate_iff {c : Char} {separator : Text} (hc : c ∉ separator) (ts : List Text) :
    c ∈ List.intercalate separator ts ↔ ∃ t ∈ ts, c ∈ t := by
  induction ts with
  | nil => simp
  | cons t rest ih =>
      cases rest with
      | nil => simp
      | cons next rest =>
          rw [List.intercalate_cons_cons, List.mem_append, List.mem_append, ih]
          simp [hc]

theorem newline_mem_text_iff (p : Path) : '\n' ∈ p.text ↔ ∃ name ∈ p.names, '\n' ∈ name := by
  have hslash : '\n' ∉ ("/" : Text) := by decide
  unfold text
  split
  · next hempty => simp [hempty.2, dot]
  · have hanchor : '\n' ∉ p.anchor.text := by
      cases p.anchor <;> decide
    rw [List.mem_append, or_iff_right hanchor]
    exact mem_intercalate_iff hslash p.names

end EmulationBindings.Path
