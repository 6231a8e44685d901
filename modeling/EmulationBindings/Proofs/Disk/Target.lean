import EmulationBindings.Disk.Access
import Mathlib.Data.Set.Insert

/-!
# Where a path leads

The disk has no links, so the location that a path leads to, if it leads anywhere, depends on
its names and the working directory alone.  What the disk decides is only whether the path can
be followed, and making files and directories never takes that away.
-/

namespace EmulationBindings

namespace Path

/-- One name further from a location: `..` leads up and any other name down. -/
def advance (l : Location) (name : Text) : Location :=
  if name = dotDot then l.dropLast else l ++ [name]

/-- The location that a path denotes.  Two paths denote the same file when their targets are
the same. -/
def target (cwd : Location) (p : Path) : Location :=
  p.names.foldl advance (Disk.origin cwd p.anchor)

/-- The targets of a path and of all that is written before it. -/
def stations (cwd : Location) (p : Path) : Set Location :=
  {l | ∃ names, names <+: p.names ∧ l = target cwd ⟨p.anchor, names⟩}

theorem target_append_of_ne (cwd : Location) (anchor : Anchor)
    (before : List Text) {name : Text} (hname : name ≠ dotDot) :
    target cwd ⟨anchor, before ++ [name]⟩ =
      target cwd ⟨anchor, before⟩ ++ [name] := by
  simp [target, advance, hname]

end Path

/-- A system in which no file grows past this many bytes. -/
def Trouble.limit (most : Nat) : Trouble := fun _ content =>
  if most < content.length then
    some (.stopped most { number := 27, phrase := "File too large" })
  else .none

namespace Disk

def KeepsDirectories (d d' : Disk) : Prop :=
  ∀ l, d.get? l = some .directory → d'.get? l = some .directory

theorem KeepsDirectories.trans {d₁ d₂ d₃ : Disk}
    (h₁₂ : d₁.KeepsDirectories d₂) (h₂₃ : d₂.KeepsDirectories d₃) :
    d₁.KeepsDirectories d₃ :=
  fun l h => h₂₃ l (h₁₂ l h)

theorem get?_root (d : Disk) : d.get? [] = some .directory := by
  simp [get?]

/-! ## Following names -/

/-- A step that succeeds starts in a directory and goes on from where its name leads. -/
theorem follow_cons_eq_ok {d : Disk} {l m : Location} {name : Text} {rest : List Text}
    (hfollow : d.follow l (name :: rest) = .ok m) :
    d.get? l = some .directory ∧
      (name = Path.dotDot ∨ (Utf8.encode name).length ≤ maxName) ∧
      d.follow (Path.advance l name) rest = .ok m := by
  rw [Disk.follow] at hfollow
  split at hfollow
  · simp at hfollow
  · simp at hfollow
  · next hdir =>
    split at hfollow
    · next hup =>
      exact ⟨hdir, .inl hup, by rwa [Path.advance, if_pos hup]⟩
    · next hdown =>
      split at hfollow
      · simp at hfollow
      · next hshort =>
        exact ⟨hdir, .inr (Nat.le_of_not_lt hshort), by rwa [Path.advance, if_neg hdown]⟩

theorem follow_eq_foldl {d : Disk} {l m : Location} {names : List Text}
    (hfollow : d.follow l names = .ok m) :
    m = names.foldl Path.advance l := by
  induction names generalizing l with
  | nil =>
      simp only [follow, Except.ok.injEq] at hfollow
      exact hfollow.symm
  | cons name rest ih =>
      obtain ⟨-, -, hrest⟩ := follow_cons_eq_ok hfollow
      exact ih hrest

theorem KeepsDirectories.follow {d d' : Disk} (hkeeps : d.KeepsDirectories d')
    {l m : Location} {names : List Text}
    (hfollow : d.follow l names = .ok m) :
    d'.follow l names = .ok m := by
  induction names generalizing l with
  | nil => exact hfollow
  | cons name rest ih =>
      obtain ⟨hdir, hname, hrest⟩ := follow_cons_eq_ok hfollow
      have hnext := ih hrest
      rw [Disk.follow, hkeeps l hdir]
      by_cases hup : name = Path.dotDot
      · simpa [Path.advance, hup] using hnext
      · have hshort : ¬ maxName < (Utf8.encode name).length :=
          Nat.not_lt_of_le (hname.resolve_left hup)
        simpa [Path.advance, hup, hshort] using hnext

theorem locate_eq_target {d : Disk} {cwd l : Location} {p : Path}
    (hlocate : d.locate cwd p = .ok l) :
    l = p.target cwd := by
  unfold locate at hlocate
  split at hlocate
  · simp at hlocate
  · exact follow_eq_foldl hlocate

theorem KeepsDirectories.locate {d d' : Disk} (hkeeps : d.KeepsDirectories d')
    {cwd l : Location} {p : Path}
    (hlocate : d.locate cwd p = .ok l) :
    d'.locate cwd p = .ok l := by
  unfold Disk.locate at hlocate ⊢
  split at hlocate
  · simp at hlocate
  · next hshort =>
    rw [if_neg hshort]
    exact hkeeps.follow hlocate

/-- What can be followed to a directory passes directories only. -/
theorem directory_of_follow {d : Disk} {l m : Location} {names before : List Text}
    (hfollow : d.follow l names = .ok m) (hdir : d.get? m = some .directory)
    (hbefore : before <+: names) : d.get? (before.foldl Path.advance l) = some .directory := by
  induction names generalizing l before with
  | nil =>
      obtain rfl := List.prefix_nil.mp hbefore
      obtain rfl := follow_eq_foldl hfollow
      exact hdir
  | cons name rest ih =>
      obtain ⟨hhere, -, hrest⟩ := follow_cons_eq_ok hfollow
      cases before with
      | nil => exact hhere
      | cons first more =>
          obtain ⟨rfl, hmore⟩ := List.cons_prefix_cons.mp hbefore
          have hnext := ih hrest hmore
          exact hnext

theorem directory_of_mem_stations {d : Disk} {cwd : Location} {p : Path}
    (hnode : d.nodeAt? cwd p = some .directory) :
    ∀ l ∈ p.stations cwd, d.get? l = some .directory := by
  unfold nodeAt? locate at hnode
  split at hnode
  · next m hlocate =>
    split at hlocate
    · simp at hlocate
    · rintro l ⟨names, hnames, rfl⟩
      exact directory_of_follow hlocate hnode hnames
  · simp at hnode

/-! ## Reading and writing a file -/

theorem read_eq_ok_iff {d : Disk} {cwd : Location} {p : Path} {content : Bytes} :
    d.read cwd p = .ok content ↔
      p.hasNul = false ∧ d.locate cwd p = .ok (p.target cwd) ∧
        d.get? (p.target cwd) = some (.file content) := by
  unfold read
  cases hnul : p.hasNul with
  | true => simp
  | false =>
      cases hlocate : d.locate cwd p with
      | error o => simp
      | ok l =>
          obtain rfl := locate_eq_target hlocate
          cases hnode : d.get? (p.target cwd) with
          | none => simp [hnode]
          | some node => cases node <;> simp [hnode]

theorem read_eq_ok_iff_nodeAt? {d : Disk} {cwd : Location} {p : Path} {content : Bytes}
    (hnul : p.hasNul = false) :
    d.read cwd p = .ok content ↔ d.nodeAt? cwd p = some (.file content) := by
  unfold read nodeAt?
  rw [if_neg (by simp [hnul])]
  cases d.locate cwd p with
  | error o => simp
  | ok l =>
      cases hnode : d.get? l with
      | none => simp [hnode]
      | some node => cases node <;> simp [hnode]

theorem read_eq_nul_iff {d : Disk} {cwd : Location} {p : Path} :
    d.read cwd p = .error .nul ↔ p.hasNul = true := by
  unfold read
  cases p.hasNul with
  | true => simp
  | false =>
      simp only [Bool.false_eq_true, if_false, iff_false]
      split
      · simp
      · split <;> simp

/-- A path that is not turned down is read, or meets an obstacle. -/
theorem fault_of_read {d : Disk} {cwd : Location} {p : Path} {fault : AccessFault}
    (hnul : p.hasNul = false) (hread : d.read cwd p = .error fault) :
    ∃ o, fault = .blocked o p := by
  unfold read at hread
  rw [if_neg (by simp [hnul])] at hread
  split at hread
  · next o _ => exact ⟨o, (Except.error.inj hread).symm⟩
  · split at hread
    · exact ⟨.missing, (Except.error.inj hread).symm⟩
    · exact ⟨.isDirectory, (Except.error.inj hread).symm⟩
    · simp at hread

theorem KeepsDirectories.read {d d' : Disk} (hkeeps : d.KeepsDirectories d')
    {cwd : Location} {p : Path} {content : Bytes}
    (hread : d.read cwd p = .ok content)
    (hsame : d'.get? (p.target cwd) = d.get? (p.target cwd)) :
    d'.read cwd p = .ok content := by
  obtain ⟨hnul, hlocate, hnode⟩ := read_eq_ok_iff.mp hread
  exact read_eq_ok_iff.mpr ⟨hnul, hkeeps.locate hlocate, hsame.trans hnode⟩

/-- What a successful write does: the path leads to a place that is no directory, and the
disk changes there and nowhere else. -/
structure Wrote (d : Disk) (cwd : Location) (p : Path) (content : Bytes) (d' : Disk) : Prop where
  noNul : p.hasNul = false
  located : d.locate cwd p = .ok (p.target cwd)
  noDirectory : d.get? (p.target cwd) ≠ some .directory
  get? : ∀ l, d'.get? l =
    if l = p.target cwd then some (.file content) else d.get? l

theorem wrote_set {d : Disk} {cwd : Location} {p : Path} (hnul : p.hasNul = false)
    (hlocate : d.locate cwd p = .ok (p.target cwd))
    (hnode : d.get? (p.target cwd) ≠ some .directory) (content : Bytes) :
    d.Wrote cwd p content (d.set (p.target cwd) (.file content)) := by
  have hroot : p.target cwd ≠ [] := by
    intro hnil
    rw [hnil] at hnode
    exact hnode (get?_root d)
  exact ⟨hnul, hlocate, hnode, fun l => get?_set d (p.target cwd) l (.file content) hroot⟩

/-- What a write that has failed leaves behind: nothing, or, when the system has stopped it in an
open file, the beginning of the content. -/
inductive Spoilt (trouble : Trouble) (d : Disk) (cwd : Location) (p : Path) (content : Bytes) :
    Disk → Prop where
  | untouched : Spoilt trouble d cwd p content d
  | begun {kept : Nat} {error : SystemError} {d' : Disk}
      (hstopped : trouble (p.target cwd) content = some (.stopped kept error))
      (hwrote : d.Wrote cwd p (content.take kept) d') : Spoilt trouble d cwd p content d'

/-- A write puts all of the content in its place, which takes a system that lets it, or it fails. -/
theorem write_cases (d : Disk) (cwd : Location) (trouble : Trouble) (p : Path) (content : Bytes) :
    (∃ d', d.write cwd trouble p content = (d', none) ∧ d.Wrote cwd p content d' ∧
      trouble (p.target cwd) content = none) ∨
    ∃ d' fault, d.write cwd trouble p content = (d', some fault) ∧
      d.Spoilt trouble cwd p content d' := by
  unfold write
  cases hnul : p.hasNul with
  | true => exact .inr ⟨d, .nul, rfl, .untouched⟩
  | false =>
      rw [if_neg (by simp)]
      cases hlocate : d.locate cwd p with
      | error o => exact .inr ⟨d, .blocked o p, rfl, .untouched⟩
      | ok l =>
          obtain rfl := locate_eq_target hlocate
          by_cases hnode : d.get? (p.target cwd) = some .directory
          · simp only [hnode]
            exact .inr ⟨d, .blocked .isDirectory p, rfl, .untouched⟩
          · have hwrote := wrote_set hnul hlocate hnode
            simp only
            cases htrouble : trouble (p.target cwd) content with
            | none => exact .inl ⟨_, rfl, hwrote content, rfl⟩
            | some problem =>
                cases problem with
                | unopened e => exact .inr ⟨d, .system e, rfl, .untouched⟩
                | stopped kept e => exact .inr ⟨_, .system e, rfl, .begun htrouble (hwrote _)⟩

variable {d d' : Disk} {cwd : Location} {p : Path} {content : Bytes}

theorem Wrote.get?_target (hwrote : d.Wrote cwd p content d') :
    d'.get? (p.target cwd) = some (.file content) := by
  rw [hwrote.get?, if_pos rfl]

theorem Wrote.get?_of_ne (hwrote : d.Wrote cwd p content d')
    {l : Location} (hne : l ≠ p.target cwd) :
    d'.get? l = d.get? l := by
  rw [hwrote.get?, if_neg hne]

theorem Wrote.keepsDirectories (hwrote : d.Wrote cwd p content d') :
    d.KeepsDirectories d' := by
  intro l hdir
  have hne : l ≠ p.target cwd := by
    rintro rfl
    exact hwrote.noDirectory hdir
  rw [hwrote.get?_of_ne hne, hdir]

/-- No directory is where a file has been written, neither before nor after. -/
theorem Wrote.get?_eq_directory_iff (hwrote : d.Wrote cwd p content d') (l : Location) :
    d'.get? l = some .directory ↔ d.get? l = some .directory := by
  constructor
  · intro hdir
    have hne : l ≠ p.target cwd := by
      rintro rfl
      rw [hwrote.get?_target] at hdir
      simp at hdir
    rw [← hwrote.get?_of_ne hne, hdir]
  · exact hwrote.keepsDirectories l

theorem Wrote.read (hwrote : d.Wrote cwd p content d') :
    d'.read cwd p = .ok content :=
  read_eq_ok_iff.mpr
    ⟨hwrote.noNul, hwrote.keepsDirectories.locate hwrote.located, hwrote.get?_target⟩

theorem Wrote.read_of_ne (hwrote : d.Wrote cwd p content d')
    {q : Path} {other : Bytes} (hne : q.target cwd ≠ p.target cwd)
    (hread : d.read cwd q = .ok other) :
    d'.read cwd q = .ok other :=
  hwrote.keepsDirectories.read hread (hwrote.get?_of_ne hne)

theorem Wrote.read_eq_ok_iff_of_ne (hwrote : d.Wrote cwd p content d')
    {q : Path} {other : Bytes} (hne : q.target cwd ≠ p.target cwd) :
    d'.read cwd q = .ok other ↔ d.read cwd q = .ok other := by
  constructor
  · intro hread
    have hback : d'.KeepsDirectories d := fun l => (hwrote.get?_eq_directory_iff l).mp
    exact hback.read hread (hwrote.get?_of_ne hne).symm
  · exact hwrote.read_of_ne hne

/-- Other files are not spoilt. -/
theorem Spoilt.get?_of_ne {trouble : Trouble} (hspoilt : d.Spoilt trouble cwd p content d')
    {l : Location} (hne : l ≠ p.target cwd) : d'.get? l = d.get? l := by
  cases hspoilt with
  | untouched => rfl
  | begun _ hwrote => exact hwrote.get?_of_ne hne

theorem Spoilt.get?_eq_directory_iff {trouble : Trouble}
    (hspoilt : d.Spoilt trouble cwd p content d') (l : Location) :
    d'.get? l = some .directory ↔ d.get? l = some .directory := by
  cases hspoilt with
  | untouched => rfl
  | begun _ hwrote => exact hwrote.get?_eq_directory_iff l

theorem Spoilt.read_of_ne {trouble : Trouble} (hspoilt : d.Spoilt trouble cwd p content d')
    {q : Path} {other : Bytes} (hne : q.target cwd ≠ p.target cwd)
    (hread : d.read cwd q = .ok other) : d'.read cwd q = .ok other := by
  cases hspoilt with
  | untouched => exact hread
  | begun _ hwrote => exact hwrote.read_of_ne hne hread

/-- Where a file can be read it can be written over, if the system lets it. -/
theorem exists_write_of_read {trouble : Trouble} {old : Bytes} (hread : d.read cwd p = .ok old)
    (htrouble : trouble (p.target cwd) content = none) :
    ∃ d', d.write cwd trouble p content = (d', none) := by
  obtain ⟨hnul, hlocate, hnode⟩ := read_eq_ok_iff.mp hread
  exact ⟨d.set (p.target cwd) (.file content),
    by simp [write, hnul, hlocate, hnode, htrouble, fill]⟩

/-- Writing what is there already changes nothing. -/
theorem Wrote.get?_eq_of_read (hwrote : d.Wrote cwd p content d')
    (hread : d.read cwd p = .ok content) (l : Location) :
    d'.get? l = d.get? l := by
  by_cases hl : l = p.target cwd
  · rw [hl, hwrote.get?_target, (read_eq_ok_iff.mp hread).2.2]
  · exact hwrote.get?_of_ne hl

end Disk

end EmulationBindings
