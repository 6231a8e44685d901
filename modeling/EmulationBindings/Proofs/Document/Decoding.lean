import EmulationBindings.Proofs.Document.Entries

/-!
# Reading both documents

A reader that knows how a document is laid out, but neither what its types or constants are called
nor how many names they hold, recovers all of this from the lines.  Names are not escaped, so what
keeps the reader on its way is what stands around them: the last member of a union is the first line
that ends with the quote and a semicolon, and no line with an item begins as the line that closes
an array.
-/

namespace EmulationBindings.Document

/-- What stands on the line between `opening` and `closing`. -/
def between? (opening closing line : Text) : Option Text :=
  (opening.isPrefixOf? line).bind closing.isSuffixOf?

theorem between?_eq_some_iff {opening closing line inner : Text} :
    between? opening closing line = some inner ↔ line = opening ++ inner ++ closing := by
  unfold between?
  simp only [Option.bind_eq_some_iff, List.isPrefixOf?_eq_some_iff_append_eq,
    List.isSuffixOf?_eq_some_iff_append_eq]
  constructor
  · rintro ⟨_, rfl, rfl⟩
    simp
  · rintro rfl
    exact ⟨inner ++ closing, by simp, rfl⟩

theorem eq_of_splitOn_eq {c : Char} {t t' : Text} (hsplit : t.splitOn c = t'.splitOn c) :
    t = t' :=
  calc
    t = List.intercalate [c] (t.splitOn c) := (List.intercalate_splitOn c).symm
    _ = List.intercalate [c] (t'.splitOn c) := by rw [hsplit]
    _ = t' := List.intercalate_splitOn c

/-- A union or an array, with the name it is given and the names it holds. -/
structure Block where
  name : Text
  members : List Text
  deriving DecidableEq

/-! ## Documents of two blocks -/

/-- Reads a block from the lines behind `head` and another behind `middle`.  Nothing may follow. -/
def readDocument (head middle : List Text)
    (readBlock : List Text → Option (Block × List Text)) (t : Text) : Option (Block × Block) := do
  let ls ← head.isPrefixOf? (t.splitOn '\n')
  let (first, ls) ← readBlock ls
  let ls ← middle.isPrefixOf? ls
  let (second, ls) ← readBlock ls
  if ls = [[]] then some (first, second) else none

section

variable {head middle : List Text} {readBlock : List Text → Option (Block × List Text)}
  {write : Block → List Text} {t : Text} {first second : Block}

/-- What reads blocks as they are written reads documents as they are written. -/
theorem readDocument_eq_some_iff
    (hread : ∀ {ls b rest},
      readBlock ls = some (b, rest) ↔ b.members ≠ [] ∧ ls = write b ++ rest) :
    readDocument head middle readBlock t = some (first, second) ↔
      first.members ≠ [] ∧ second.members ≠ [] ∧
        t.splitOn '\n' = head ++ (write first ++ (middle ++ (write second ++ [[]]))) := by
  unfold readDocument
  simp only [Option.bind_eq_bind, Option.bind_eq_some_iff, Prod.exists, hread,
    List.isPrefixOf?_eq_some_iff_append_eq]
  constructor
  · rintro ⟨_, hhead, b, _, ⟨hfirst, rfl⟩, _, rfl, b', ls, ⟨hsecond, rfl⟩, hend⟩
    split at hend
    · next hnone =>
      obtain ⟨rfl, rfl⟩ := Prod.mk.inj (Option.some.inj hend)
      exact ⟨hfirst, hsecond, by rw [← hhead, hnone]⟩
    · cases hend
  · rintro ⟨hfirst, hsecond, hlines⟩
    exact ⟨_, hlines.symm, first, _, ⟨hfirst, rfl⟩, _, rfl, second, [[]], ⟨hsecond, rfl⟩,
      if_pos rfl⟩

/-- Of all texts, only the one with these lines reads as the two blocks. -/
theorem readDocument_eq_some_iff_eq
    (hread : ∀ {ls b rest},
      readBlock ls = some (b, rest) ↔ b.members ≠ [] ∧ ls = write b ++ rest)
    (hfirst : first.members ≠ []) (hsecond : second.members ≠ [])
    (hlines : t.splitOn '\n' = head ++ (write first ++ (middle ++ (write second ++ [[]]))))
    (t' : Text) :
    readDocument head middle readBlock t' = some (first, second) ↔ t' = t := by
  rw [readDocument_eq_some_iff hread, ← hlines]
  constructor
  · rintro ⟨-, -, hlines'⟩
    exact eq_of_splitOn_eq hlines'
  · rintro rfl
    exact ⟨hfirst, hsecond, rfl⟩

end

/-! ## Unions -/

/-- Reads members up to the one with a semicolon behind its quote. -/
def readUnionMembers : List Text → Option (List Text × List Text)
  | [] => none
  | line :: rest =>
    match between? "  | '" "';" line with
    | some last => some ([last], rest)
    | none => do
      let name ← between? "  | '" "'" line
      let (names, rest) ← readUnionMembers rest
      return (name :: names, rest)

def readUnion : List Text → Option (Block × List Text)
  | [] => none
  | line :: rest => do
    let name ← between? "export type " " =" line
    let (members, rest) ← readUnionMembers rest
    return (⟨name, members⟩, rest)

def readTypeScript : Text → Option (Block × Block) :=
  readDocument typeScriptHeadLines typeScriptMiddleLines readUnion

theorem between?_lastUnionMember (name : Text) :
    between? "  | '" "';" (lastUnionMember name) = some name :=
  between?_eq_some_iff.mpr rfl

theorem between?_unionMember (name : Text) : between? "  | '" "'" (unionMember name) = some name :=
  between?_eq_some_iff.mpr rfl

/-- A name can look like the end of a union, but its line still ends with the quote behind it. -/
theorem between?_unionMember_eq_none (name : Text) :
    between? "  | '" "';" (unionMember name) = none := by
  rw [Option.eq_none_iff_forall_ne_some]
  intro last hlast
  exact unionMember_ne_lastUnionMember name last (between?_eq_some_iff.mp hlast)

theorem readUnionMembers_append {names : List Text} (hnames : names ≠ []) (rest : List Text) :
    readUnionMembers (unionMembers names ++ rest) = some (names, rest) := by
  induction names with
  | nil => exact absurd rfl hnames
  | cons name more ih =>
      cases more with
      | nil =>
          change readUnionMembers (lastUnionMember name :: rest) = _
          rw [readUnionMembers, between?_lastUnionMember]
      | cons next more =>
          change readUnionMembers (unionMember name :: (unionMembers (next :: more) ++ rest)) = _
          rw [readUnionMembers, between?_unionMember_eq_none, between?_unionMember,
            ih (List.cons_ne_nil next more)]
          rfl

theorem of_readUnionMembers_eq_some {ls names rest : List Text}
    (hread : readUnionMembers ls = some (names, rest)) :
    names ≠ [] ∧ ls = unionMembers names ++ rest := by
  induction ls generalizing names with
  | nil => simp [readUnionMembers] at hread
  | cons line ls ih =>
      rw [readUnionMembers] at hread
      split at hread
      · next last hlast =>
        obtain ⟨rfl, rfl⟩ := Prod.mk.inj (Option.some.inj hread)
        obtain rfl := between?_eq_some_iff.mp hlast
        exact ⟨List.cons_ne_nil last [], rfl⟩
      · simp only [Option.bind_eq_bind, Option.bind_eq_some_iff, Prod.exists] at hread
        obtain ⟨name, hname, more, _, hmore, hall⟩ := hread
        obtain ⟨rfl, rfl⟩ := Prod.mk.inj (Option.some.inj hall)
        obtain ⟨hne, rfl⟩ := ih hmore
        obtain rfl := between?_eq_some_iff.mp hname
        -- Members follow, so this one is not written as the last.
        obtain ⟨next, more, rfl⟩ := List.exists_cons_of_ne_nil hne
        exact ⟨List.cons_ne_nil name _, rfl⟩

theorem readUnion_eq_some_iff {ls rest : List Text} {b : Block} :
    readUnion ls = some (b, rest) ↔
      b.members ≠ [] ∧ ls = unionLines b.name b.members ++ rest := by
  constructor
  · intro hread
    cases ls with
    | nil => simp [readUnion] at hread
    | cons line ls =>
        simp only [readUnion, Option.bind_eq_bind, Option.bind_eq_some_iff, Prod.exists] at hread
        obtain ⟨name, hname, members, _, hmembers, hall⟩ := hread
        obtain ⟨rfl, rfl⟩ := Prod.mk.inj (Option.some.inj hall)
        obtain ⟨hne, rfl⟩ := of_readUnionMembers_eq_some hmembers
        obtain rfl := between?_eq_some_iff.mp hname
        exact ⟨hne, rfl⟩
  · rintro ⟨hne, rfl⟩
    have hname : between? "export type " " =" (unionOpening b.name) = some b.name :=
      between?_eq_some_iff.mpr rfl
    rw [unionLines, List.cons_append, readUnion, hname, Option.bind_eq_bind, Option.bind_some,
      readUnionMembers_append hne]
    rfl

/-! ## Arrays -/

/-- Reads items up to the closing line. -/
def readArrayItems : List Text → Option (List Text × List Text)
  | [] => none
  | line :: rest =>
    if line = arrayClosing then some ([], rest)
    else do
      let name ← between? "    \"" "\"," line
      let (names, rest) ← readArrayItems rest
      return (name :: names, rest)

def readArray : List Text → Option (Block × List Text)
  | [] => none
  | line :: rest => do
    let name ← between? "pub const " ": &[&str] = &[" line
    let (members, rest) ← readArrayItems rest
    if members = [] then none else some (⟨name, members⟩, rest)

def readRust : Text → Option (Block × Block) := readDocument rustHeadLines [[]] readArray

theorem between?_eq_some_iff_arrayItem {line name : Text} :
    between? "    \"" "\"," line = some name ↔ line = arrayItem name :=
  between?_eq_some_iff

theorem readArrayItems_eq_some_iff {ls names rest : List Text} :
    readArrayItems ls = some (names, rest) ↔
      ls = names.map arrayItem ++ arrayClosing :: rest := by
  induction ls generalizing names with
  | nil => simp [readArrayItems]
  | cons line ls ih =>
      rw [readArrayItems]
      by_cases hclosing : line = arrayClosing
      · rw [if_pos hclosing, hclosing]
        cases names with
        | nil => simp
        | cons name more => simp [(arrayItem_ne_arrayClosing name).symm]
      · rw [if_neg hclosing]
        simp only [Option.bind_eq_bind, Option.bind_eq_some_iff, Prod.exists,
          between?_eq_some_iff_arrayItem]
        cases names with
        | nil => simp [hclosing]
        | cons name more => simp [ih]

theorem arrayLines_append (constName : Text) (names rest : List Text) :
    arrayLines constName names ++ rest =
      arrayOpening constName :: (names.map arrayItem ++ arrayClosing :: rest) := by
  simp [arrayLines]

theorem readArray_eq_some_iff {ls rest : List Text} {b : Block} :
    readArray ls = some (b, rest) ↔
      b.members ≠ [] ∧ ls = arrayLines b.name b.members ++ rest := by
  constructor
  · intro hread
    cases ls with
    | nil => simp [readArray] at hread
    | cons line ls =>
        simp only [readArray, Option.bind_eq_bind, Option.bind_eq_some_iff, Prod.exists] at hread
        obtain ⟨name, hname, members, _, hmembers, hall⟩ := hread
        split at hall
        · cases hall
        · next hne =>
          obtain ⟨rfl, rfl⟩ := Prod.mk.inj (Option.some.inj hall)
          obtain rfl := readArrayItems_eq_some_iff.mp hmembers
          have hopening : line = arrayOpening name := between?_eq_some_iff.mp hname
          exact ⟨hne, by rw [arrayLines_append, hopening]⟩
  · rintro ⟨hne, rfl⟩
    have hname : between? "pub const " ": &[&str] = &[" (arrayOpening b.name) = some b.name :=
      between?_eq_some_iff.mpr rfl
    rw [arrayLines_append, readArray, hname, Option.bind_eq_bind, Option.bind_some,
      readArrayItems_eq_some_iff.mpr rfl]
    exact if_neg hne

/-! ## What the documents read as -/

section

variable {r : Recipe} {profiles systems : List Text} {t : Text}

theorem readTypeScript_eq_some_iff (hprofile : '\n' ∉ r.profileUnion)
    (hsystem : '\n' ∉ r.systemUnion) (hprofiles : OneLine profiles) (hsystems : OneLine systems)
    (ht : typeScript r profiles systems = .ok t) (t' : Text) :
    readTypeScript t' = some (⟨r.profileUnion, profiles⟩, ⟨r.systemUnion, systems⟩) ↔ t' = t := by
  have hlines := splitOn_typeScript hprofile hsystem hprofiles hsystems ht
  obtain ⟨hp, hs, -⟩ := typeScript_eq_ok_iff.mp ht
  exact readDocument_eq_some_iff_eq readUnion_eq_some_iff hp hs hlines t'

theorem readRust_eq_some_iff (hprofile : '\n' ∉ r.profileArray)
    (hsystem : '\n' ∉ r.systemArray) (hprofiles : OneLine profiles) (hsystems : OneLine systems)
    (ht : rust r profiles systems = .ok t) (t' : Text) :
    readRust t' = some (⟨r.profileArray, profiles⟩, ⟨r.systemArray, systems⟩) ↔ t' = t := by
  have hlines := splitOn_rust hprofile hsystem hprofiles hsystems ht
  obtain ⟨hp, hs, -⟩ := rust_eq_ok_iff.mp ht
  exact readDocument_eq_some_iff_eq readArray_eq_some_iff hp hs hlines t'

/-- Every name has its line, quoted as it is, and of these lines only the last ends with a semicolon
behind its quote. -/
structure MemberLines (names lines : List Text) : Prop where
  length_eq : lines.length = names.length
  getElem?_eq : ∀ i name, names[i]? = some name →
    lines[i]? = some (unionIndent ++ '\'' :: (name ++ '\'' :: unionClosing names i))
  terminated_iff : ∀ i line, lines[i]? = some line →
    (("';" : Text) <:+ line ↔ i + 1 = names.length)

theorem memberLines_unionMembers (names : List Text) : MemberLines names (unionMembers names) where
  length_eq := length_unionMembers names
  getElem?_eq := fun _ _ hname => getElem?_unionMembers hname
  terminated_iff := by
    intro i line hline
    have hlt : i < names.length := by
      rw [← length_unionMembers names]
      exact (List.getElem?_eq_some_iff.mp hline).1
    rw [getElem?_unionMembers (List.getElem?_eq_getElem hlt)] at hline
    obtain rfl := Option.some.inj hline
    by_cases hlast : i + 1 = names.length
    · rw [unionClosing, if_pos hlast]
      exact iff_of_true ⟨unionIndent ++ '\'' :: names[i], by simp⟩ hlast
    · rw [unionClosing, if_neg hlast]
      refine iff_of_false ?_ hlast
      rintro ⟨before, hends⟩
      have hquote : (before ++ ['\''] ++ [';']).getLast? =
          (unionIndent ++ '\'' :: names[i] ++ ['\'']).getLast? :=
        congrArg List.getLast? (by simpa using hends)
      rw [List.getLast?_concat, List.getLast?_concat] at hquote
      simp at hquote

/-- Every name has its line, quoted as it is and with a comma, and none of these lines is the one
that closes an array. -/
structure ItemLines (names lines : List Text) : Prop where
  length_eq : lines.length = names.length
  getElem?_eq : ∀ (i : ℕ) (name : Text), names[i]? = some name →
    lines[i]? = some (arrayIndent ++ '"' :: (name ++ '"' :: [',']))
  closing_not_mem : arrayClosing ∉ lines

theorem itemLines_map_arrayItem (names : List Text) : ItemLines names (names.map arrayItem) where
  length_eq := List.length_map arrayItem
  getElem?_eq := by
    intro i name hname
    rw [List.getElem?_map, hname, ← arrayItem_eq]
    rfl
  closing_not_mem := by
    intro hmem
    obtain ⟨name, -, hname⟩ := List.mem_map.mp hmem
    exact arrayItem_ne_arrayClosing name hname

/-- The TypeScript document can be read back: what it says is found by a reader that knows neither
the names of its types nor the length of either list, and no other text says the same.  It is
refused exactly when a list is empty, for the profiles when both are. -/
theorem typeScript_reads_back (r : Recipe) (profiles systems : List Text) :
    ((∃ e, typeScript r profiles systems = .error e) ↔ profiles = [] ∨ systems = []) ∧
    (∀ e, typeScript r profiles systems = .error e →
      e.text = "Cannot render an empty union for " ++
        if profiles = [] then r.profileUnion else r.systemUnion) ∧
    (profiles ≠ [] → systems ≠ [] → '\n' ∉ r.profileUnion → '\n' ∉ r.systemUnion →
      OneLine profiles → OneLine systems →
      ∃ t first second, typeScript r profiles systems = .ok t ∧
        (∀ t', readTypeScript t' = some (⟨r.profileUnion, profiles⟩, ⟨r.systemUnion, systems⟩) ↔
          t' = t) ∧
        t.splitOn '\n' = typeScriptHeadLines ++ (unionOpening r.profileUnion :: first ++
          (typeScriptMiddleLines ++ (unionOpening r.systemUnion :: second ++ [[]]))) ∧
        MemberLines profiles first ∧ MemberLines systems second) := by
  refine ⟨by simp [typeScript_eq_error_iff], fun e he => ?_, ?_⟩
  · obtain ⟨-, rfl⟩ := typeScript_eq_error_iff.mp he
    rfl
  · intro hp hs hprofile hsystem hprofiles hsystems
    have ht := typeScript_eq_ok_iff (r := r).mpr ⟨hp, hs, rfl⟩
    exact ⟨_, _, _, ht, readTypeScript_eq_some_iff hprofile hsystem hprofiles hsystems ht,
      splitOn_typeScript hprofile hsystem hprofiles hsystems ht,
      memberLines_unionMembers profiles, memberLines_unionMembers systems⟩

/-- Names that look like a last member, like a whole line or like nothing at all, one of them twice,
behind types that are called nearly as an opening line, or not at all. -/
theorem typeScript_reads_back_of_lookalikes :
    let r := { Recipe.standard with profileUnion := "P =", systemUnion := [] }
    let profiles : List Text := [("a';" : Text), ("'" : Text), [], ("a';" : Text)]
    let systems : List Text := [("  | 'b';" : Text), ("export type Q =" : Text)]
    OneLine profiles ∧ OneLine systems ∧
      (∃ t, typeScript r profiles systems = .ok t ∧
        readTypeScript t = some (⟨"P =", profiles⟩, ⟨[], systems⟩)) ∧
      ∃ e, typeScript r [] [] = .error e ∧ e.text = "Cannot render an empty union for P =" := by
  intro r profiles systems
  have hprofiles : OneLine profiles := by
    unfold OneLine
    decide
  have hsystems : OneLine systems := by
    unfold OneLine
    decide
  obtain ⟨hrefused, hsays, -⟩ := typeScript_reads_back r [] []
  obtain ⟨e, he⟩ := hrefused.mpr (.inl rfl)
  obtain ⟨-, -, hback⟩ := typeScript_reads_back r profiles systems
  obtain ⟨t, first, second, ht, hread, -⟩ :=
    hback (by decide) (by decide) (by decide) (by decide) hprofiles hsystems
  exact ⟨hprofiles, hsystems, ⟨t, ht, (hread t).mpr rfl⟩, e, he, hsays e he⟩

/-- The Rust document can be read back: what it says is found by a reader that knows neither the
names of its constants nor the length of either list, and no other text says the same.  It is
refused exactly when a list is empty, for the profiles when both are. -/
theorem rust_reads_back (r : Recipe) (profiles systems : List Text) :
    ((∃ e, rust r profiles systems = .error e) ↔ profiles = [] ∨ systems = []) ∧
    (∀ e, rust r profiles systems = .error e →
      e.text = "Cannot render an empty array for " ++
        if profiles = [] then r.profileArray else r.systemArray) ∧
    (profiles ≠ [] → systems ≠ [] → '\n' ∉ r.profileArray → '\n' ∉ r.systemArray →
      OneLine profiles → OneLine systems →
      ∃ t first second, rust r profiles systems = .ok t ∧
        (∀ t', readRust t' = some (⟨r.profileArray, profiles⟩, ⟨r.systemArray, systems⟩) ↔
          t' = t) ∧
        t.splitOn '\n' = rustHeadLines ++ (arrayOpening r.profileArray :: first ++ [arrayClosing] ++
          ([[]] ++ (arrayOpening r.systemArray :: second ++ [arrayClosing] ++ [[]]))) ∧
        ItemLines profiles first ∧ ItemLines systems second) := by
  refine ⟨by simp [rust_eq_error_iff], fun e he => ?_, ?_⟩
  · obtain ⟨-, rfl⟩ := rust_eq_error_iff.mp he
    rfl
  · intro hp hs hprofile hsystem hprofiles hsystems
    have ht := rust_eq_ok_iff (r := r).mpr ⟨hp, hs, rfl⟩
    exact ⟨_, _, _, ht, readRust_eq_some_iff hprofile hsystem hprofiles hsystems ht,
      splitOn_rust hprofile hsystem hprofiles hsystems ht,
      itemLines_map_arrayItem profiles, itemLines_map_arrayItem systems⟩

/-- Names that look like the closing line, like the end of an item or like nothing at all, one of
them twice, behind constants that are called nearly as an opening line, or not at all. -/
theorem rust_reads_back_of_lookalikes :
    let r := { Recipe.standard with profileArray := "P: &[&str] = &[", systemArray := [] }
    let profiles : List Text := [("];" : Text), ("\"," : Text), [], ("];" : Text)]
    let systems : List Text := [("pub const Q: &[&str] = &[" : Text), ("\"" : Text)]
    OneLine profiles ∧ OneLine systems ∧
      (∃ t, rust r profiles systems = .ok t ∧
        readRust t = some (⟨"P: &[&str] = &[", profiles⟩, ⟨[], systems⟩)) ∧
      ∃ e, rust r [] [] = .error e ∧
        e.text = "Cannot render an empty array for P: &[&str] = &[" := by
  intro r profiles systems
  have hprofiles : OneLine profiles := by
    unfold OneLine
    decide
  have hsystems : OneLine systems := by
    unfold OneLine
    decide
  obtain ⟨hrefused, hsays, -⟩ := rust_reads_back r [] []
  obtain ⟨e, he⟩ := hrefused.mpr (.inl rfl)
  obtain ⟨-, -, hback⟩ := rust_reads_back r profiles systems
  obtain ⟨t, first, second, ht, hread, -⟩ :=
    hback (by decide) (by decide) (by decide) (by decide) hprofiles hsystems
  exact ⟨hprofiles, hsystems, ⟨t, ht, (hread t).mpr rfl⟩, e, he, hsays e he⟩

end

end EmulationBindings.Document
