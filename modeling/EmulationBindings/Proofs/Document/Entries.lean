import EmulationBindings.Proofs.Document.Agreement
import EmulationBindings.Proofs.Document.Literal

/-!
# The entries of both documents

Every name has a line of its own in each document, in the order of the table, where it stands
between quotes as it is.  The line holds one whole literal exactly when its name can be enclosed in
these quotes, so a quote or a backslash in the table can break a document.  A name never holds a
double quote, which leaves a backslash at its end as the one way to break a Rust entry.
-/

namespace EmulationBindings.Document

/-! ## Documents by their lines -/

theorem splitOn_ofLines_append {ls : List Text} (hls : ls ≠ []) (hone : OneLine ls) (t : Text) :
    (ofLines ls ++ t).splitOn '\n' = ls ++ t.splitOn '\n' := by
  induction ls with
  | nil => exact absurd rfl hls
  | cons line rest ih =>
      cases rest with
      | nil =>
          rw [ofLines_singleton_append, List.splitOn_append_cons_self_of_not_mem hone.head]
          rfl
      | cons next rest =>
          have hrest := ih (by simp) hone.tail
          rw [ofLines_cons_append, List.splitOn_append_cons_self_of_not_mem hone.head, hrest]
          rfl

/-- Nothing follows the last line feed of a document, which is one more line to split it into. -/
theorem splitOn_ofLines_four {head first middle second : List Text}
    (hhead : head ≠ [] ∧ OneLine head) (hfirst : first ≠ [] ∧ OneLine first)
    (hmiddle : middle ≠ [] ∧ OneLine middle) (hsecond : second ≠ [] ∧ OneLine second) :
    (ofLines head ++ ofLines first ++ ofLines middle ++ ofLines second).splitOn '\n' =
      head ++ (first ++ (middle ++ (second ++ [[]]))) := by
  rw [← List.append_nil (ofLines second), List.append_assoc, List.append_assoc,
    splitOn_ofLines_append hhead.1 hhead.2, splitOn_ofLines_append hfirst.1 hfirst.2,
    splitOn_ofLines_append hmiddle.1 hmiddle.2, splitOn_ofLines_append hsecond.1 hsecond.2,
    List.splitOn_nil]

/-- Does the line begin with `opening`? -/
def opensWith (opening line : Text) : Bool := (Text.after? opening line).isSome

theorem opensWith_append (opening rest : Text) : opensWith opening (opening ++ rest) = true := by
  have hafter : Text.after? opening (opening ++ rest) = some rest :=
    Text.after?_eq_some_iff.mpr rfl
  simp [opensWith, hafter]

/-- The lines that begin with `opening`. -/
def entryLines (opening t : Text) : List Text := (t.splitOn '\n').filter (opensWith opening)

/-- The line is a literal with this name, behind `opening` and before `closing`. -/
def HoldsLiteral (opening : Text) (mark : Char) (closing name line : Text) : Prop :=
  ∃ body, line = opening ++ mark :: body ∧ readLiteral mark body = some (name, closing)

theorem holdsLiteral_append_iff {opening closing name body : Text} {mark : Char} :
    HoldsLiteral opening mark closing name (opening ++ mark :: body) ↔
      readLiteral mark body = some (name, closing) := by
  constructor
  · rintro ⟨body', hline, hread⟩
    have hbody := (List.cons.inj (List.append_cancel_left hline)).2
    rwa [hbody]
  · intro hread
    exact ⟨body, rfl, hread⟩

/-! ## Unions -/

def unionIndent : Text := "  | "

/-- A semicolon ends the last member of a union and no other. -/
def unionClosing (names : List Text) (i : ℕ) : Text := if i + 1 = names.length then ";" else []

def typeScriptHeadLines : List Text :=
  [("/**" : Text), (" * Auto-generated by emulation_codegen" : Text),
    (" * DO NOT EDIT MANUALLY" : Text), (" */" : Text), [], ("/**" : Text),
    (" * Browser profile names supported" : Text), (" */" : Text)]

def typeScriptMiddleLines : List Text :=
  [[], ("/**" : Text), (" * Operating systems supported for emulation" : Text), (" */" : Text)]

theorem getElem?_unionMembers {names : List Text} {i : ℕ} {name : Text}
    (hname : names[i]? = some name) :
    (unionMembers names)[i]? =
      some (unionIndent ++ '\'' :: (name ++ '\'' :: unionClosing names i)) := by
  induction names generalizing i with
  | nil => simp at hname
  | cons first rest ih =>
      cases rest with
      | nil =>
          cases i with
          | zero =>
              obtain rfl : first = name := by simpa using hname
              simp [unionMembers, unionIndent, unionClosing]
          | succ i => simp at hname
      | cons next rest =>
          cases i with
          | zero =>
              obtain rfl : first = name := by simpa using hname
              simp [unionMembers, unionIndent, unionClosing]
          | succ i =>
              have hrest := ih (i := i) (by simpa using hname)
              have hclosing : unionClosing (first :: next :: rest) (i + 1) =
                  unionClosing (next :: rest) i := by
                simp [unionClosing]
              rw [unionMembers, List.getElem?_cons_succ, hrest, hclosing]

theorem length_unionMembers (names : List Text) :
    (unionMembers names).length = names.length := by
  induction names with
  | nil => rfl
  | cons name rest ih =>
      cases rest with
      | nil => rfl
      | cons next rest =>
          rw [unionMembers, List.length_cons, ih]
          rfl

theorem exists_of_mem_unionMembers {names : List Text} {line : Text}
    (hline : line ∈ unionMembers names) :
    ∃ name ∈ names, ∃ i, line = unionIndent ++ '\'' :: (name ++ '\'' :: unionClosing names i) := by
  obtain ⟨i, hi⟩ := List.mem_iff_getElem?.mp hline
  have hlt : i < names.length := by
    rw [← length_unionMembers names]
    exact (List.getElem?_eq_some_iff.mp hi).1
  have hmember := getElem?_unionMembers (List.getElem?_eq_getElem hlt)
  rw [hi] at hmember
  exact ⟨names[i], List.getElem_mem hlt, i, Option.some.inj hmember⟩

theorem newline_not_mem_unionClosing (names : List Text) (i : ℕ) :
    '\n' ∉ unionClosing names i := by
  unfold unionClosing
  split <;> simp

theorem oneLine_unionMembers {names : List Text} (hnames : OneLine names) :
    OneLine (unionMembers names) := by
  intro line hline
  obtain ⟨name, hname, i, rfl⟩ := exists_of_mem_unionMembers hline
  have hclosing := newline_not_mem_unionClosing names i
  simp [unionIndent, hnames name hname, hclosing]

def unionLines (typeName : Text) (names : List Text) : List Text :=
  unionOpening typeName :: unionMembers names

theorem oneLine_unionLines {typeName : Text} {names : List Text} (htype : '\n' ∉ typeName)
    (hnames : OneLine names) : OneLine (unionLines typeName names) := by
  have hopening : '\n' ∉ unionOpening typeName := by
    unfold unionOpening
    simp [htype]
  exact List.forall_mem_cons.mpr ⟨hopening, oneLine_unionMembers hnames⟩

/-- The TypeScript document line by line.  Nothing follows its last line feed. -/
theorem splitOn_typeScript {r : Recipe} {profiles systems : List Text} {t : Text}
    (hprofile : '\n' ∉ r.profileUnion) (hsystem : '\n' ∉ r.systemUnion)
    (hprofiles : OneLine profiles) (hsystems : OneLine systems)
    (ht : typeScript r profiles systems = .ok t) :
    t.splitOn '\n' = typeScriptHeadLines ++ (unionLines r.profileUnion profiles ++
      (typeScriptMiddleLines ++ (unionLines r.systemUnion systems ++ [[]]))) := by
  obtain ⟨-, -, rfl⟩ := typeScript_eq_ok_iff.mp ht
  have hhead : typeScriptHead = ofLines typeScriptHeadLines := by decide +kernel
  have hmiddle : typeScriptMiddle = ofLines typeScriptMiddleLines := by decide +kernel
  rw [hhead, hmiddle]
  exact splitOn_ofLines_four ⟨by decide, by simp [OneLine, typeScriptHeadLines]⟩
    ⟨List.cons_ne_nil _ _, oneLine_unionLines hprofile hprofiles⟩
    ⟨by decide, by simp [OneLine, typeScriptMiddleLines]⟩
    ⟨List.cons_ne_nil _ _, oneLine_unionLines hsystem hsystems⟩

theorem filter_opensWith_unionLines (typeName : Text) (names : List Text) :
    (unionLines typeName names).filter (opensWith (unionIndent ++ ['\''])) =
      unionMembers names := by
  have hopening : opensWith (unionIndent ++ ['\'']) (unionOpening typeName) = false := rfl
  rw [unionLines, List.filter_cons, hopening]
  apply List.filter_eq_self.mpr
  intro line hline
  obtain ⟨name, -, i, rfl⟩ := exists_of_mem_unionMembers hline
  have hopens := opensWith_append (unionIndent ++ ['\'']) (name ++ '\'' :: unionClosing names i)
  simpa using hopens

/-- In the TypeScript document the lines that open a literal are the members of both unions. -/
theorem entryLines_typeScript {profiles systems : List Text} {t : Text}
    (hprofiles : OneLine profiles) (hsystems : OneLine systems)
    (ht : typeScript .standard profiles systems = .ok t) :
    entryLines (unionIndent ++ ['\'']) t = unionMembers profiles ++ unionMembers systems := by
  have hprofile : '\n' ∉ Recipe.standard.profileUnion := by decide +kernel
  have hsystem : '\n' ∉ Recipe.standard.systemUnion := by decide +kernel
  have hhead : typeScriptHeadLines.filter (opensWith (unionIndent ++ ['\''])) = [] := by
    decide +kernel
  have hmiddle : typeScriptMiddleLines.filter (opensWith (unionIndent ++ ['\''])) = [] := by
    decide +kernel
  have hend : ([[]] : List Text).filter (opensWith (unionIndent ++ ['\''])) = [] := rfl
  rw [entryLines, splitOn_typeScript hprofile hsystem hprofiles hsystems ht]
  simp only [List.filter_append, filter_opensWith_unionLines, hhead, hmiddle, hend, List.nil_append,
    List.append_nil]

/-! ## Arrays -/

def arrayIndent : Text := "    "

def rustHeadLines : List Text :=
  [("// Auto-generated by emulation_codegen" : Text), ("// DO NOT EDIT MANUALLY" : Text), []]

theorem arrayItem_eq (name : Text) :
    arrayItem name = arrayIndent ++ '"' :: (name ++ '"' :: [',']) := by
  unfold arrayItem arrayIndent
  simp

def arrayLines (constName : Text) (names : List Text) : List Text :=
  arrayOpening constName :: names.map arrayItem ++ [arrayClosing]

theorem oneLine_arrayLines {constName : Text} {names : List Text} (hconst : '\n' ∉ constName)
    (hnames : OneLine names) : OneLine (arrayLines constName names) := by
  have hopening : '\n' ∉ arrayOpening constName := by
    unfold arrayOpening
    simp [hconst]
  have hitems : OneLine (names.map arrayItem) :=
    List.forall_mem_map.mpr fun name hname => newline_not_mem_arrayItem (hnames name hname)
  have hclosing : OneLine [arrayClosing] :=
    List.forall_mem_singleton.mpr newline_not_mem_arrayClosing
  exact List.forall_mem_append.mpr ⟨List.forall_mem_cons.mpr ⟨hopening, hitems⟩, hclosing⟩

/-- The Rust document line by line. -/
theorem splitOn_rust {r : Recipe} {profiles systems : List Text} {t : Text}
    (hprofile : '\n' ∉ r.profileArray) (hsystem : '\n' ∉ r.systemArray)
    (hprofiles : OneLine profiles) (hsystems : OneLine systems)
    (ht : rust r profiles systems = .ok t) :
    t.splitOn '\n' = rustHeadLines ++ (arrayLines r.profileArray profiles ++
      ([[]] ++ (arrayLines r.systemArray systems ++ [[]]))) := by
  obtain ⟨-, -, rfl⟩ := rust_eq_ok_iff.mp ht
  have hhead : rustHead = ofLines rustHeadLines := by decide +kernel
  have hbetween : ("\n" : Text) = ofLines [[]] := rfl
  rw [hhead, hbetween]
  exact splitOn_ofLines_four ⟨by decide, by simp [OneLine, rustHeadLines]⟩
    ⟨by simp, oneLine_arrayLines hprofile hprofiles⟩
    ⟨by decide, by simp [OneLine]⟩
    ⟨by simp, oneLine_arrayLines hsystem hsystems⟩

theorem filter_opensWith_arrayLines (constName : Text) (names : List Text) :
    (arrayLines constName names).filter (opensWith (arrayIndent ++ ['"'])) =
      names.map arrayItem := by
  have hopening : opensWith (arrayIndent ++ ['"']) (arrayOpening constName) = false := rfl
  have hclosing : opensWith (arrayIndent ++ ['"']) arrayClosing = false := by decide
  have hitems : (names.map arrayItem).filter (opensWith (arrayIndent ++ ['"'])) =
      names.map arrayItem := by
    apply List.filter_eq_self.mpr
    intro line hline
    obtain ⟨name, -, rfl⟩ := List.mem_map.mp hline
    have hopens := opensWith_append (arrayIndent ++ ['"']) (name ++ '"' :: [','])
    rw [arrayItem_eq]
    simpa using hopens
  rw [arrayLines, List.filter_append, List.filter_cons, hopening, hitems]
  simp [hclosing]

/-- In the Rust document the lines that open a literal are the items of both arrays. -/
theorem entryLines_rust {profiles systems : List Text} {t : Text}
    (hprofiles : OneLine profiles) (hsystems : OneLine systems)
    (ht : rust .standard profiles systems = .ok t) :
    entryLines (arrayIndent ++ ['"']) t = profiles.map arrayItem ++ systems.map arrayItem := by
  have hprofile : '\n' ∉ Recipe.standard.profileArray := by decide +kernel
  have hsystem : '\n' ∉ Recipe.standard.systemArray := by decide +kernel
  have hhead : rustHeadLines.filter (opensWith (arrayIndent ++ ['"'])) = [] := by
    decide +kernel
  have hempty : ([[]] : List Text).filter (opensWith (arrayIndent ++ ['"'])) = [] := rfl
  rw [entryLines, splitOn_rust hprofile hsystem hprofiles hsystems ht]
  simp only [List.filter_append, filter_opensWith_arrayLines, hhead, hempty, List.nil_append,
    List.append_nil]

/-! ## Which entries are whole literals -/

/-- Every name has its line, in order, and the line is as it should be for the sound names only. -/
structure EntriesOf (names lines : List Text) (wellFormed : ℕ → Text → Text → Prop)
    (sound : Text → Prop) : Prop where
  length_eq : lines.length = names.length
  wellFormed_iff : ∀ i name line, names[i]? = some name → lines[i]? = some line →
    (wellFormed i name line ↔ sound name)

/-- A TypeScript literal between apostrophes.  No line may end inside of it. -/
def IsUnionEntry (closing name line : Text) : Prop :=
  HoldsLiteral unionIndent '\'' closing name line ∧ '\r' ∉ name ∧ '\n' ∉ name

def IsArrayEntry (name line : Text) : Prop := HoldsLiteral arrayIndent '"' [','] name line

theorem entriesOf_unionMembers {names : List Text} (hnames : OneLine names) :
    EntriesOf names (unionMembers names) (fun i => IsUnionEntry (unionClosing names i))
      fun name => Enclosable '\'' name ∧ '\r' ∉ name where
  length_eq := length_unionMembers names
  wellFormed_iff := by
    intro i name line hname hline
    rw [getElem?_unionMembers hname] at hline
    obtain rfl := Option.some.inj hline
    have hnewline : '\n' ∉ name := hnames name (List.mem_of_getElem? hname)
    unfold IsUnionEntry
    rw [holdsLiteral_append_iff, readLiteral_enclosed_iff (by decide)]
    simp [hnewline]

theorem entriesOf_map_arrayItem {names : List Text} (hnames : ∀ name ∈ names, '"' ∉ name) :
    EntriesOf names (names.map arrayItem) (fun _ => IsArrayEntry)
      fun name => Even (closingBackslashes name) where
  length_eq := List.length_map arrayItem
  wellFormed_iff := by
    intro i name line hname hline
    rw [List.getElem?_map, hname] at hline
    obtain rfl := Option.some.inj hline
    have hquote : '"' ∉ name := hnames name (List.mem_of_getElem? hname)
    rw [IsArrayEntry, arrayItem_eq, holdsLiteral_append_iff, readLiteral_enclosed_iff (by decide),
      enclosable_iff_of_not_mem hquote]

/-- In the TypeScript document of a source, the entry of a name is one whole literal exactly when
the name has no carriage return, an odd number of backslashes before each of its apostrophes, and
an even number at its end. -/
theorem union_entries_whole_iff {source typeScript rust : Text} {w w' : World}
    (hrun : (Tables.generate .standard source).result w = (.ok (typeScript, rust), w')) :
    ∃ first second, entryLines (unionIndent ++ ['\'']) typeScript = first ++ second ∧
      EntriesOf (Table.profileNames .standard source) first
        (fun i => IsUnionEntry (unionClosing (Table.profileNames .standard source) i))
        (fun name => Enclosable '\'' name ∧ '\r' ∉ name) ∧
      EntriesOf (Table.systemNames .standard source) second
        (fun i => IsUnionEntry (unionClosing (Table.systemNames .standard source) i))
        (fun name => Enclosable '\'' name ∧ '\r' ∉ name) := by
  have hprofiles := oneLine_profileNames .standard source
  have hsystems := oneLine_systemNames .standard source
  have hdocument := (Tables.generate_eq_ok hrun).1
  have hlines := entryLines_typeScript hprofiles hsystems hdocument
  exact ⟨_, _, hlines, entriesOf_unionMembers hprofiles, entriesOf_unionMembers hsystems⟩

/-- Two profiles with an apostrophe, of which only the second is taken by a backslash. -/
theorem union_entries_whole_iff_of_apostrophes :
    let source : Text := "=> (\"it's\"\n=> (\"it\\'s\"\nplain,\nEmulationOS\n=> \"b\""
    ∃ typeScript rust w' lines line line',
      (Tables.generate .standard source).result { disk := .empty } =
        (.ok (typeScript, rust), w') ∧
      lines <+: entryLines (unionIndent ++ ['\'']) typeScript ∧
      lines[0]? = some line ∧ ¬ IsUnionEntry [] "it's" line ∧
      lines[1]? = some line' ∧ IsUnionEntry ";" "it\\'s" line' := by
  intro source
  obtain ⟨⟨typeScript, rust⟩, w', hrun⟩ := Action.exists_result_of_isOk
    (x := Tables.generate .standard source) (w := { disk := .empty }) (by decide +kernel)
  have hnames : Table.profileNames .standard source =
      [("it's" : Text), ("it\\'s" : Text)] := by decide +kernel
  obtain ⟨first, second, hlines, ⟨hlength, hwhole⟩, -⟩ := union_entries_whole_iff hrun
  rw [hnames] at hlength hwhole
  obtain ⟨line, line', rfl⟩ : ∃ line line', first = [line, line'] :=
    List.length_eq_two.mp hlength
  have hbroken := hwhole 0 "it's" line rfl rfl
  have hkept := hwhole 1 "it\\'s" line' rfl rfl
  have hopen : ¬ Enclosable '\'' "it's" := by
    rw [← readLiteral_enclosed_iff (by decide) (r := [])]
    decide
  have hclosed : Enclosable '\'' "it\\'s" := by
    rw [← readLiteral_enclosed_iff (by decide) (r := [])]
    decide
  refine ⟨typeScript, rust, w', [line, line'], line, line', hrun, ⟨second, hlines.symm⟩, rfl,
    ?_, rfl, ?_⟩
  · exact fun hwhole => hopen (hbroken.mp hwhole).1
  · exact hkept.mpr ⟨hclosed, by decide⟩

/-- An apostrophe in a table ends the literal of its name too early. -/
theorem union_entry_of_apostrophe_not_whole :
    let source : Text :=
      "A => (\"it's\", x)\nplain,\nEmulationOS\nL => \"linux\",\n);\n"
    ∃ typeScript rust w',
      (Tables.generate .standard source).result { disk := .empty } =
        (.ok (typeScript, rust), w') ∧
      Table.profileNames .standard source = [("it's" : Text)] ∧
      (entryLines (unionIndent ++ ['\'']) typeScript)[0]? = some ("  | 'it's';" : Text) ∧
      ∀ closing, ¬ IsUnionEntry closing "it's" "  | 'it's';" := by
  intro source
  obtain ⟨⟨typeScript, rust⟩, w', hrun⟩ := Action.exists_result_of_isOk
    (x := Tables.generate .standard source) (w := { disk := .empty }) (by decide +kernel)
  have hdocument := (Tables.generate_eq_ok hrun).1
  have hnames : Table.profileNames .standard source = [("it's" : Text)] := by decide +kernel
  have hlines := entryLines_typeScript (oneLine_profileNames .standard source)
    (oneLine_systemNames .standard source) hdocument
  rw [hnames] at hlines
  refine ⟨typeScript, rust, w', hrun, hnames, by rw [hlines]; rfl, ?_⟩
  rintro closing ⟨hholds, -⟩
  have hline : ("  | 'it's';" : Text) = unionIndent ++ '\'' :: ("it's';" : Text) := rfl
  have hends : readLiteral '\'' "it's';" = some (("it" : Text), ("s';" : Text)) := by decide
  rw [hline, holdsLiteral_append_iff, hends] at hholds
  simp at hholds

/-- In the Rust document of a source, the entry of a name is one whole literal exactly when the
name ends in an even number of backslashes. -/
theorem array_entries_whole_iff {source typeScript rust : Text} {w w' : World}
    (hrun : (Tables.generate .standard source).result w = (.ok (typeScript, rust), w')) :
    ∃ first second, entryLines (arrayIndent ++ ['"']) rust = first ++ second ∧
      EntriesOf (Table.profileNames .standard source) first (fun _ => IsArrayEntry)
        (fun name => Even (closingBackslashes name)) ∧
      EntriesOf (Table.systemNames .standard source) second (fun _ => IsArrayEntry)
        (fun name => Even (closingBackslashes name)) := by
  have hdocument := (Tables.generate_eq_ok hrun).2
  have hlines := entryLines_rust (oneLine_profileNames .standard source)
    (oneLine_systemNames .standard source) hdocument
  have hprofiles : ∀ name ∈ Table.profileNames .standard source, '"' ∉ name :=
    fun _ hname => Table.quote_not_mem_of_mem_profileNames hname
  have hsystems : ∀ name ∈ Table.systemNames .standard source, '"' ∉ name :=
    fun _ hname => Table.quote_not_mem_of_mem_systemNames hname
  exact ⟨_, _, hlines, entriesOf_map_arrayItem hprofiles, entriesOf_map_arrayItem hsystems⟩

/-- A profile with an escaped quote, where its name ends, and one with an escaped backslash. -/
theorem array_entries_whole_iff_of_backslashes :
    let source : Text := "=> (\"a\\\"b\"\n=> (\"a\\\\\"\nplain,\nEmulationOS\n=> \"b\""
    ∃ typeScript rust w' lines line line',
      (Tables.generate .standard source).result { disk := .empty } =
        (.ok (typeScript, rust), w') ∧
      lines <+: entryLines (arrayIndent ++ ['"']) rust ∧
      lines[0]? = some line ∧ ¬ IsArrayEntry "a\\" line ∧
      lines[1]? = some line' ∧ IsArrayEntry "a\\\\" line' := by
  intro source
  obtain ⟨⟨typeScript, rust⟩, w', hrun⟩ := Action.exists_result_of_isOk
    (x := Tables.generate .standard source) (w := { disk := .empty }) (by decide +kernel)
  have hnames : Table.profileNames .standard source =
      [("a\\" : Text), ("a\\\\" : Text)] := by decide +kernel
  obtain ⟨first, second, hlines, ⟨hlength, hwhole⟩, -⟩ := array_entries_whole_iff hrun
  rw [hnames] at hlength hwhole
  obtain ⟨line, line', rfl⟩ : ∃ line line', first = [line, line'] :=
    List.length_eq_two.mp hlength
  have hbroken := hwhole 0 "a\\" line rfl rfl
  have hkept := hwhole 1 "a\\\\" line' rfl rfl
  have hopen : ¬ Even (closingBackslashes "a\\") := by decide
  have hclosed : Even (closingBackslashes "a\\\\") := by decide
  exact ⟨typeScript, rust, w', [line, line'], line, line', hrun, ⟨second, hlines.symm⟩, rfl,
    fun hwhole => hopen (hbroken.mp hwhole), rfl, hkept.mpr hclosed⟩

/-- The backslash of an escaped quote ends the name and takes the quote that should end its
literal. -/
theorem array_entry_of_escaped_quote_not_whole :
    let source : Text :=
      "A => (\"a\\\"b\", x)\nplain,\nEmulationOS\nL => \"linux\",\n);\n"
    ∃ typeScript rust w',
      (Tables.generate .standard source).result { disk := .empty } =
        (.ok (typeScript, rust), w') ∧
      Table.profileNames .standard source = [("a\\" : Text)] ∧
      (entryLines (arrayIndent ++ ['"']) rust)[0]? = some ("    \"a\\\"," : Text) ∧
      ¬ IsArrayEntry "a\\" "    \"a\\\"," := by
  intro source
  obtain ⟨⟨typeScript, rust⟩, w', hrun⟩ := Action.exists_result_of_isOk
    (x := Tables.generate .standard source) (w := { disk := .empty }) (by decide +kernel)
  have hdocument := (Tables.generate_eq_ok hrun).2
  have hnames : Table.profileNames .standard source = [("a\\" : Text)] := by decide +kernel
  have hlines := entryLines_rust (oneLine_profileNames .standard source)
    (oneLine_systemNames .standard source) hdocument
  rw [hnames] at hlines
  refine ⟨typeScript, rust, w', hrun, hnames, by rw [hlines]; rfl, ?_⟩
  intro hholds
  have hline : ("    \"a\\\"," : Text) = arrayIndent ++ '"' :: ("a\\\"," : Text) := rfl
  have hends : readLiteral '"' "a\\\"," = none := by decide
  rw [IsArrayEntry, hline, holdsLiteral_append_iff, hends] at hholds
  simp at hholds

end EmulationBindings.Document
