import EmulationBindings.Proofs.Generation.Survey
import EmulationBindings.Proofs.Json.Prefixes
import EmulationBindings.Proofs.Text.Utf8

/-!
# Answers that are cut short

An answer of the build tool is an object, and the brace that closes it is the last that it holds
except for blanks.  When it ends anywhere before that brace, inside a character, a number, a string
or a container, it is refused.
-/

namespace EmulationBindings.Metadata

/-- The bytes of the characters that may stand between tokens. -/
def isSpaceByte (b : UInt8) : Bool := b = 0x20 || b = 0x09 || b = 0x0A || b = 0x0D

theorem isSpaceByte_of_mem_encode {t : Text} (ht : ∀ c ∈ t, Json.isSpace c = true) {b : UInt8}
    (hb : b ∈ Utf8.encode t) : isSpaceByte b = true := by
  obtain ⟨c, hc, hb⟩ := List.mem_flatMap.mp hb
  have hspaces : (Utf8.encode [' ', '\t', '\n', '\r']).all isSpaceByte = true := by decide
  have hspace : c ∈ [' ', '\t', '\n', '\r'] := by
    simpa [Json.isSpace, or_assoc] using ht c hc
  exact List.all_eq_true.mp hspaces b (List.mem_flatMap.mpr ⟨c, hspace, hb⟩)

theorem readMetadata_eq_ok_iff {stdout : Bytes} {ms : Json.Members} :
    readMetadata stdout = .ok ms ↔
      ∃ t, stdout = Utf8.encode t ∧ Json.decode t = .ok (.object ms) := by
  simp only [← Utf8.decode_eq_ok_iff]
  unfold readMetadata
  cases Utf8.decode stdout with
  | error fault => simp
  | ok t =>
      cases hdecode : Json.decode t with
      | error fault => cases fault <;> simp [hdecode]
      | ok v => cases v <;> simp [hdecode]

/-- Of an answer that is read, the beginnings that are read too lack only blanks. -/
theorem isSpaceByte_of_readMetadata_append {cut omitted : Bytes} {ms ms' : Json.Members}
    (hwhole : readMetadata (cut ++ omitted) = .ok ms) (hcut : readMetadata cut = .ok ms')
    {b : UInt8} (hb : b ∈ omitted) : isSpaceByte b = true := by
  obtain ⟨u, hu, hdecode⟩ := readMetadata_eq_ok_iff.mp hwhole
  obtain ⟨t, rfl, ht⟩ := readMetadata_eq_ok_iff.mp hcut
  obtain ⟨more, rfl, rfl⟩ := Utf8.exists_encode_of_append hu
  obtain ⟨-, hblank⟩ := (Json.decode_append_eq_ok_iff ht).mp hdecode
  exact isSpaceByte_of_mem_encode hblank hb

/-- An answer that is cut before the last of its bytes that is no blank is never accepted, wherever
the cut is. -/
theorem truncated_answer_refused {site site' : Site} {cut omitted stderr stderr' : Bytes}
    (hended : site.outcome = .ended 0 (cut ++ omitted) stderr)
    (hended' : site'.outcome = .ended 0 cut stderr')
    (homitted : ∃ b ∈ omitted, isSpaceByte b = false)
    {directory : Path} {tool : Text} {w : World} {ms : Json.Members}
    (haccepted : ((query site directory tool).result w).1 = .ok ms)
    (directory' : Path) (tool' : Text) (w' : World) :
    ∃ stop, ((query site' directory' tool').result w').1 = .error stop := by
  have hread {s : Site} {d : Path} {name : Text} {v : World} {stdout err : Bytes}
      {found : Json.Members} (houtcome : s.outcome = .ended 0 stdout err)
      (hquery : ((query s d name).result v).1 = .ok found) : readMetadata stdout = .ok found := by
    rw [(Generation.reads_query s d name v).1] at hquery
    have hmetadata := (Generation.queried_eq_ok_iff.mp hquery).2
    rw [houtcome] at hmetadata
    exact hmetadata
  cases hcut : ((query site' directory' tool').result w').1 with
  | error stop => exact ⟨stop, rfl⟩
  | ok ms' =>
      obtain ⟨b, hb, hink⟩ := homitted
      have hspace := isSpaceByte_of_readMetadata_append (hread hended haccepted)
        (hread hended' hcut) hb
      rw [hspace] at hink
      cases hink

/-! ## A cut inside a character -/

/-- An object whose member is one character of two bytes. -/
def shortAnswer : Bytes := Utf8.encode "\x7b\"n\": \"é\"\x7d\n"

def shortRead (stdout : Bytes) : Except Stop Json.Members :=
  ((query { cwd := [], outcome := .ended 0 stdout [] } (.ofText "r") "cargo").result
    { disk := .empty }).1

theorem truncated_answer_refused_inside_character :
    (shortRead shortAnswer).isOk = true ∧
      ∃ stop, shortRead (shortAnswer.take 8) = .error stop := by
  have hread : (shortRead shortAnswer).isOk = true := by decide +kernel
  obtain ⟨ms, haccepted⟩ := exists_eq_ok_of_isOk hread
  have homitted : ∃ b ∈ shortAnswer.drop 8, isSpaceByte b = false := by decide
  let site : Site := { cwd := [], outcome := .ended 0 shortAnswer [] }
  let cut : Site := { cwd := [], outcome := .ended 0 (shortAnswer.take 8) [] }
  have hended : site.outcome = .ended 0 (shortAnswer.take 8 ++ shortAnswer.drop 8) [] := by
    rw [List.take_append_drop]
  have hended' : cut.outcome = .ended 0 (shortAnswer.take 8) [] := rfl
  exact ⟨hread, truncated_answer_refused hended hended' homitted haccepted _ _ _⟩

end EmulationBindings.Metadata
