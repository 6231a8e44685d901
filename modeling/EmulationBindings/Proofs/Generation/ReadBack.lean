import EmulationBindings.Proofs.Generation.Run

/-!
# Documents read back

What has been written can be looked at in two ways.  Read as a source it is the document itself
with the digest that its record tells, and a source that is written back over itself does not
change.  What the system has not let through to its end is a beginning of the document, which nobody
takes back.  Judged for staleness it is the document with every line ending turned into a line feed,
so a document with a carriage return never passes, not even just after it is written.
-/

namespace EmulationBindings.Artifact

open EmulationBindings.Action
open EmulationBindings.Generation
  (narrowSite readSource sourceOn sourceOn_eq_ok reads_readSource)

/-! ## Staleness -/

theorem isStale_eq_false_iff {d : Disk} {cwd : Location} {a : Artifact}
    (hnul : a.path.hasNul = false) :
    isStale d cwd a = .ok false ↔ ∃ t, d.nodeAt? cwd a.path = some (.file (Utf8.encode t)) ∧
      Text.replace ['\r'] ['\n'] (Text.replace ['\r', '\n'] ['\n'] t) = a.content := by
  simp only [← Text.unifyNewlines_eq_replace, ← Disk.read_eq_ok_iff_nodeAt? hnul]
  constructor
  · intro hstale
    obtain ⟨bytes, hread, hsame⟩ := read_of_isStale_eq_false hstale
    obtain ⟨t, rfl, ht⟩ := comparable?_eq_some_iff.mp hsame
    exact ⟨t, hread, ht⟩
  · rintro ⟨t, hread, ht⟩
    rw [isStale_of_read hread, comparable?_encode, ht]
    simp

theorem isStale_eq_true_or_false {cwd : Location} {a : Artifact} (hnul : a.path.hasNul = false)
    (d : Disk) : isStale d cwd a = .ok true ∨ isStale d cwd a = .ok false := by
  by_cases hfile : ∃ bytes, d.read cwd a.path = .ok bytes
  · obtain ⟨bytes, hread⟩ := hfile
    rw [isStale_of_read hread]
    cases comparable? bytes != some a.content <;> simp
  · exact .inl (isStale_of_not_read hnul (not_exists.mp hfile))

/-- A document is up to date exactly when its path is a file whose bytes are those of a text and
this text is the document once its line endings are replaced, the pairs first and then the lone
carriage returns.  A document with a carriage return in it is out of date on every disk.  Any other
is up to date just after it has been written. -/
theorem stale_unless_lines_agree (cwd : Location) (a : Artifact) (hnul : a.path.hasNul = false) :
    (∀ d, isStale d cwd a = .ok true ∨ isStale d cwd a = .ok false) ∧
    (∀ d, isStale d cwd a = .ok false ↔
      ∃ t, d.nodeAt? cwd a.path = some (.file (Utf8.encode t)) ∧
        Text.replace ['\r'] ['\n'] (Text.replace ['\r', '\n'] ['\n'] t) = a.content) ∧
    ('\r' ∈ a.content → ∀ d, isStale d cwd a = .ok true) ∧
    ∀ (site : Site) w w' record, site.cwd = cwd → (a.write site).result w = (.ok record, w') →
      (isStale w'.disk cwd a = .ok true ↔ '\r' ∈ a.content) := by
  refine ⟨isStale_eq_true_or_false hnul, fun d => isStale_eq_false_iff hnul,
    fun hreturn d => ?_, fun site w w' record hcwd hwrite => ?_⟩
  · refine (isStale_eq_true_or_false hnul d).resolve_right fun hcurrent => ?_
    obtain ⟨t, -, ht⟩ := (isStale_eq_false_iff hnul).mp hcurrent
    rw [← Text.unifyNewlines_eq_replace] at ht
    exact Text.return_not_mem_unifyNewlines t (ht ▸ hreturn)
  · obtain ⟨changed, -, -, hwrote⟩ := write_eq_ok hwrite
    rw [hcwd] at hwrote
    rw [isStale_of_read_content hwrote.read, Except.ok.injEq, decide_eq_true_iff]

/-- A file with all kinds of line endings passes for one document, which is up to date once it is
written too.  The other has a carriage return in it and is out of date before and after. -/
theorem stale_unless_lines_agree_of_mixed_endings :
    let site : Site := { cwd := [], outcome := .ended 0 [] [] }
    let path : Path := ⟨.relative, ["f"]⟩
    let d : Disk := Disk.empty.set ["f"] (.file (Utf8.encode "a\r\r\n\rb\r\n"))
    let plain : Artifact := ⟨"rust", path, "a\n\n\nb\n"⟩
    let returned : Artifact := ⟨"rust", path, "a\rb"⟩
    path.hasNul = false ∧ isStale d [] plain = .ok false ∧
      '\r' ∈ returned.content ∧ isStale d [] returned = .ok true ∧
      (∃ record w', (plain.write site).result { disk := d } = (.ok record, w') ∧
        isStale w'.disk [] plain ≠ .ok true) ∧
      ∃ record w', (returned.write site).result { disk := d } = (.ok record, w') ∧
        isStale w'.disk [] returned = .ok true := by
  intro site path d plain returned
  have hnul : path.hasNul = false := by decide
  obtain ⟨-, hplain, -, hplainWritten⟩ := stale_unless_lines_agree [] plain hnul
  obtain ⟨-, -, hreturned, hreturnedWritten⟩ := stale_unless_lines_agree [] returned hnul
  have hreturn : '\r' ∈ returned.content := by decide
  have hnode : d.nodeAt? [] path = some (.file (Utf8.encode "a\r\r\n\rb\r\n")) := by
    decide +kernel
  have hlines : Text.replace ['\r'] ['\n'] (Text.replace ['\r', '\n'] ['\n'] "a\r\r\n\rb\r\n") =
      plain.content := by
    rw [← Text.unifyNewlines_eq_replace]
    decide
  obtain ⟨record, w', hwrite⟩ := exists_result_of_isOk
    (x := plain.write site) (w := { disk := d }) (by decide +kernel)
  obtain ⟨record', w'', hwrite'⟩ := exists_result_of_isOk
    (x := returned.write site) (w := { disk := d }) (by decide +kernel)
  refine ⟨hnul, (hplain d).mpr ⟨_, hnode, hlines⟩, hreturn, hreturned hreturn d,
    ⟨record, w', hwrite, fun hstale => ?_⟩, record', w'', hwrite', ?_⟩
  · exact absurd ((hplainWritten _ _ _ _ rfl hwrite).mp hstale) (by decide)
  · exact (hreturnedWritten _ _ _ _ rfl hwrite').mpr hreturn

/-! ## Reading a document as a source -/

theorem sourceOn_of_wrote {site : Site} {a : Artifact} {d d' : Disk}
    (hwrote : d.Wrote site.cwd a.path (Utf8.encode a.content) d') (changed : Bool) :
    sourceOn site a.path d' = .ok (a.content, (a.record changed).sha256) := by
  simp [sourceOn, hwrote.read, Utf8.decode_encode, record]

theorem stage_of_write_eq_error {site : Site} {a : Artifact} {w w' : World} {f : Failure}
    (hwrite : (a.write site).result w = (.error (.failed f), w')) : f.stage = .writeFailure := by
  obtain ⟨error, rfl⟩ := (write_eq_error hwrite).2 f rfl
  rfl

/-- A source written over itself with the text that was read leaves all files as they are. -/
theorem exists_rewrite_of_readSource {site : Site} {path : Path} {text sha256 : Text}
    {w w' : World} (hread : (readSource site path).result w = (.ok (text, sha256), w'))
    (htrouble : site.trouble (path.target site.cwd) (Utf8.encode text) = none) (kind : Text) :
    ∃ record w'', ((Artifact.mk kind path text).write site).result w' = (.ok record, w'') ∧
      record.sha256 = sha256 ∧ ∀ l, w''.disk.get? l = w.disk.get? l := by
  obtain ⟨hsource, hdisk⟩ := (reads_readSource site path).of_result hread
  obtain ⟨bytes, hbytes, hdecode, rfl⟩ := sourceOn_eq_ok hsource.symm
  obtain rfl := Utf8.decode_eq_ok_iff.mp hdecode
  rw [← hdisk] at hbytes
  obtain ⟨record, w'', hwrite⟩ := exists_result_write (a := ⟨kind, path, text⟩) hbytes htrouble
  obtain ⟨changed, -, rfl, hwrote⟩ := write_eq_ok hwrite
  refine ⟨_, w'', hwrite, rfl, fun l => ?_⟩
  rw [hwrote.get?_eq_of_read hbytes l, hdisk]

/-- What is written is read back as it was, with the digest that its record tells, and no other
place of the disk changes.  When the document cannot be written none does, unless the system has
stopped the write in the open file.  The other way round, what is read and written back, if the
system lets it, leaves the disk as it was. -/
theorem written_text_reads_back (site : Site) (w : World) :
    (∀ (a : Artifact) record w', (a.write site).result w = (.ok record, w') →
      ((readSource site a.path).result w').1 = .ok (a.content, record.sha256) ∧
      w.disk.get? (a.path.target site.cwd) ≠ some .directory ∧
      w'.disk.get? (a.path.target site.cwd) = some (.file (Utf8.encode a.content)) ∧
      ∀ l, l ≠ a.path.target site.cwd → w'.disk.get? l = w.disk.get? l) ∧
    (∀ (a : Artifact) stop w', (a.write site).result w = (.error stop, w') →
      w.disk.Spoilt site.trouble site.cwd a.path (Utf8.encode a.content) w'.disk ∧
        ∀ f, stop = .failed f → f.stage = .writeFailure) ∧
    ∀ path text sha256 w', (readSource site path).result w = (.ok (text, sha256), w') →
      site.trouble (path.target site.cwd) (Utf8.encode text) = none →
      ∀ kind, ∃ record w'',
        ((Artifact.mk kind path text).write site).result w' = (.ok record, w'') ∧
        record.sha256 = sha256 ∧ ∀ l, w''.disk.get? l = w.disk.get? l := by
  refine ⟨fun a record w' hwrite => ?_, fun a stop w' hwrite => ?_,
    fun path text sha256 w' hread htrouble kind =>
      exists_rewrite_of_readSource hread htrouble kind⟩
  · obtain ⟨changed, -, rfl, hwrote⟩ := write_eq_ok hwrite
    refine ⟨?_, hwrote.noDirectory, hwrote.get?_target, fun l hne => hwrote.get?_of_ne hne⟩
    rw [(reads_readSource site a.path w').1, sourceOn_of_wrote hwrote changed]
  · refine ⟨(write_eq_error hwrite).1, ?_⟩
    rintro f rfl
    exact stage_of_write_eq_error hwrite

/-- One file and one directory. -/
def pairWorld : World where
  disk := ⟨[(["f"], .file (Utf8.encode "a\r\nb\r")), (["d"], .directory)]⟩

/-- A text with a byte order mark, all kinds of line endings and a character beyond the first plane
goes over an old file, a directory is in the way of another, and a source with carriage returns
is written over itself. -/
theorem written_text_reads_back_of_line_endings :
    let site := narrowSite 16
    let w := pairWorld
    let a : Artifact := ⟨"rust", ⟨.relative, ["f"]⟩, "\uFEFFa\r\n\r𐍈\n"⟩
    let blocked : Artifact := ⟨"rust", ⟨.relative, ["d"]⟩, "a"⟩
    (∃ record w', (a.write site).result w = (.ok record, w') ∧
      ((readSource site a.path).result w').1 = .ok (a.content, record.sha256)) ∧
    (∃ f w', (blocked.write site).result w = (.error (.failed f), w') ∧
      f.stage = .writeFailure ∧
      w.disk.Spoilt site.trouble site.cwd blocked.path (Utf8.encode blocked.content) w'.disk) ∧
    ∃ text sha256 w', (readSource site a.path).result w = (.ok (text, sha256), w') ∧
      ∃ record w'', ((Artifact.mk "rust" a.path text).write site).result w' = (.ok record, w'') ∧
        w''.disk.get? ["f"] = some (.file (Utf8.encode "a\r\nb\r")) := by
  intro site w a blocked
  obtain ⟨hback, hkept, hagain⟩ := written_text_reads_back site w
  obtain ⟨record, w', hwrite⟩ := exists_result_of_isOk (x := a.write site) (w := w)
    (by decide +kernel)
  obtain ⟨f, w₁, hblocked, hstage⟩ := exists_result_of_stage? (x := blocked.write site) (w := w)
    (s := .writeFailure) (by decide +kernel)
  obtain ⟨⟨text, sha256⟩, w₂, hread, htext⟩ := exists_result_of_endsWith
    (x := readSource site a.path) (w := w) (p := fun found _ => found.1 = "a\r\nb\r")
    (by decide +kernel)
  obtain rfl : text = "a\r\nb\r" := of_decide_eq_true htext
  obtain ⟨record', w₃, hrewrite, -, hsame⟩ := hagain _ _ _ _ hread (by decide +kernel) "rust"
  refine ⟨⟨record, w', hwrite, (hback a record w' hwrite).1⟩,
    ⟨f, w₁, hblocked, hstage, (hkept _ _ _ hblocked).1⟩,
    _, sha256, w₂, hread, record', w₃, hrewrite, ?_⟩
  rw [hsame]
  decide +kernel

/-- With room for two bytes only, an old file makes way for the first two of a document. -/
theorem written_text_lost_half_way :
    let a : Artifact := ⟨"rust", ⟨.relative, ["f"]⟩, "b\na\n"⟩
    ∃ f w', (a.write (narrowSite 2)).result pairWorld = (.error (.failed f), w') ∧
      f.stage = .writeFailure ∧ w'.disk.get? ["f"] = some (.file (Utf8.encode "b\n")) ∧
      w'.disk ≠ pairWorld.disk := by
  intro a
  obtain ⟨f, w', hwrite, hstage⟩ := exists_result_of_stage? (x := a.write (narrowSite 2))
    (w := pairWorld) (s := .writeFailure) (by decide +kernel)
  have hbegun : ((a.write (narrowSite 2)).result pairWorld).2.disk.get? ["f"] =
      some (.file (Utf8.encode "b\n")) := by
    decide +kernel
  rw [hwrite] at hbegun
  refine ⟨f, w', hwrite, hstage, hbegun, fun hsame => ?_⟩
  rw [hsame] at hbegun
  exact absurd hbegun (by decide +kernel)

end EmulationBindings.Artifact
