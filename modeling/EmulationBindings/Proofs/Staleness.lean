import EmulationBindings.Artifact
import EmulationBindings.Proofs.Disk.Target
import EmulationBindings.Proofs.Text.Newlines
import EmulationBindings.Proofs.Text.Utf8

/-!
# Files that are out of date

A file is judged by its text with every line ending read as a line feed, while a document is
written as it stands.  So a file can pass for a document that it differs from, by the carriage
returns in its line endings, and a document with a carriage return in it is out of date as soon as
it is written.  Writing to another file does not change the judgement.
-/

namespace EmulationBindings.Artifact

theorem comparable?_eq_some_iff {bytes : Bytes} {t : Text} :
    comparable? bytes = some t ↔ ∃ u, bytes = Utf8.encode u ∧ Text.unifyNewlines u = t := by
  unfold comparable?
  cases hdecode : Utf8.decode bytes with
  | error fault =>
      simp only [reduceCtorEq, false_iff]
      rintro ⟨u, hu, -⟩
      rw [Utf8.decode_eq_ok_iff.mpr hu] at hdecode
      simp at hdecode
  | ok u =>
      obtain rfl := Utf8.decode_eq_ok_iff.mp hdecode
      simp [Utf8.encode_inj]

theorem comparable?_encode (t : Text) :
    comparable? (Utf8.encode t) = some (Text.unifyNewlines t) :=
  comparable?_eq_some_iff.mpr ⟨t, rfl, rfl⟩

variable {d d' : Disk} {cwd : Location} {a : Artifact}

theorem isStale_of_read {bytes : Bytes} (hread : d.read cwd a.path = .ok bytes) :
    isStale d cwd a = .ok (comparable? bytes != some a.content) := by
  simp [isStale, hread]

theorem isStale_of_hasNul (hnul : a.path.hasNul = true) :
    isStale d cwd a = .error .nulInPath := by
  rw [isStale, Disk.read_eq_nul_iff.mpr hnul]
  rfl

theorem isStale_of_not_read (hnul : a.path.hasNul = false)
    (hread : ∀ bytes, d.read cwd a.path ≠ .ok bytes) :
    isStale d cwd a = .ok true := by
  cases hfile : d.read cwd a.path with
  | ok bytes => exact absurd hfile (hread bytes)
  | error fault =>
      obtain ⟨o, rfl⟩ := Disk.fault_of_read hnul hfile
      rw [isStale, hfile]
      rfl

/-- The judgement depends on the disk only through the bytes that can be read. -/
theorem isStale_congr
    (hread : ∀ bytes, d'.read cwd a.path = .ok bytes ↔ d.read cwd a.path = .ok bytes) :
    isStale d' cwd a = isStale d cwd a := by
  cases hnul : a.path.hasNul with
  | true => rw [isStale_of_hasNul hnul, isStale_of_hasNul hnul]
  | false =>
      by_cases hfile : ∃ bytes, d.read cwd a.path = .ok bytes
      · obtain ⟨bytes, hbytes⟩ := hfile
        rw [isStale_of_read hbytes, isStale_of_read ((hread bytes).mpr hbytes)]
      · rw [not_exists] at hfile
        have hfile' (bytes : Bytes) : d'.read cwd a.path ≠ .ok bytes :=
          (hread bytes).not.mpr (hfile bytes)
        rw [isStale_of_not_read hnul hfile, isStale_of_not_read hnul hfile']

theorem isStale_of_wrote_ne {p : Path} {content : Bytes} (hwrote : d.Wrote cwd p content d')
    (hne : a.path.target cwd ≠ p.target cwd) :
    isStale d' cwd a = isStale d cwd a :=
  isStale_congr fun _ => hwrote.read_eq_ok_iff_of_ne hne

/-- A document that stands in its file is out of date exactly when it has a carriage return. -/
theorem isStale_of_read_content (hread : d.read cwd a.path = .ok (Utf8.encode a.content)) :
    isStale d cwd a = .ok (decide ('\r' ∈ a.content)) := by
  rw [isStale_of_read hread, comparable?_encode]
  congr 1
  rw [Bool.eq_iff_iff, decide_eq_true_iff, bne_iff_ne, ne_eq, Option.some_inj,
    Text.unifyNewlines_eq_self_iff, not_not]

theorem read_of_isStale_eq_false (hstale : isStale d cwd a = .ok false) :
    ∃ bytes, d.read cwd a.path = .ok bytes ∧ comparable? bytes = some a.content := by
  unfold isStale at hstale
  split at hstale
  · next fault hread =>
    cases hcause : fault.cause <;> simp [hcause, Except.map] at hstale
  · next bytes hread =>
    exact ⟨bytes, hread, by simpa using hstale⟩

/-- The file has kept its lines, and has stayed the same exactly when every line ending in it was
a line feed already. -/
def KeepsLines (cwd : Location) (p : Path) (d d' : Disk) : Prop :=
  ∃ t, d.read cwd p = .ok (Utf8.encode t) ∧
    d'.read cwd p = .ok (Utf8.encode (Text.unifyNewlines t)) ∧
    (d'.read cwd p = d.read cwd p ↔ '\r' ∉ t)

/-- A file that passes for a document has the lines of the document. -/
theorem keepsLines_of_isStale_eq_false (hstale : isStale d cwd a = .ok false)
    (hread : d'.read cwd a.path = .ok (Utf8.encode a.content)) :
    KeepsLines cwd a.path d d' := by
  obtain ⟨bytes, hold, hsame⟩ := read_of_isStale_eq_false hstale
  obtain ⟨t, rfl, ht⟩ := comparable?_eq_some_iff.mp hsame
  rw [← ht] at hread
  refine ⟨t, hold, hread, ?_⟩
  rw [hread, hold, Except.ok.injEq, Utf8.encode_inj, Text.unifyNewlines_eq_self_iff]

end EmulationBindings.Artifact
