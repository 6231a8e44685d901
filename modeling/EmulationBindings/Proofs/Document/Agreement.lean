import EmulationBindings.Proofs.Extraction
import EmulationBindings.Proofs.Table.Names
import Mathlib.Tactic.TFAE

/-!
# The documents and the tables change together

Names are written without any escape, so a name may look like the end of a literal, of a union or
of an array.  What keeps them apart all the same is the line feed, which no name holds: the last
member of a union is the line that ends with a semicolon, and an array ends with the first line
that does not begin with a blank.  Each document therefore determines both lists.
-/

namespace EmulationBindings.Document

def OneLine (names : List Text) : Prop := ∀ name ∈ names, '\n' ∉ name

theorem OneLine.head {name : Text} {rest : List Text} (h : OneLine (name :: rest)) :
    '\n' ∉ name :=
  h name List.mem_cons_self

theorem OneLine.tail {name : Text} {rest : List Text} (h : OneLine (name :: rest)) :
    OneLine rest :=
  fun other hother => h other (List.mem_cons_of_mem name hother)

theorem ofLines_singleton_append (line rest : Text) :
    ofLines [line] ++ rest = line ++ '\n' :: rest := by
  simp [ofLines]

theorem ofLines_cons_append (line next rest : Text) (ls : List Text) :
    ofLines (line :: next :: ls) ++ rest = line ++ '\n' :: (ofLines (next :: ls) ++ rest) := by
  simp [ofLines, List.intercalate_cons_cons]

/-! ## Unions -/

def unionMember (name : Text) : Text := "  | '" ++ name ++ "'"

def lastUnionMember (name : Text) : Text := "  | '" ++ name ++ "';"

theorem newline_not_mem_unionMember {name : Text} (hname : '\n' ∉ name) :
    '\n' ∉ unionMember name := by
  unfold unionMember
  simp [hname]

theorem newline_not_mem_lastUnionMember {name : Text} (hname : '\n' ∉ name) :
    '\n' ∉ lastUnionMember name := by
  unfold lastUnionMember
  simp [hname]

theorem unionMember_inj {name name' : Text} (heq : unionMember name = unionMember name') :
    name = name' := by
  unfold unionMember at heq
  simpa using heq

theorem lastUnionMember_inj {name name' : Text}
    (heq : lastUnionMember name = lastUnionMember name') : name = name' := by
  unfold lastUnionMember at heq
  simpa using heq

theorem unionMember_ne_lastUnionMember (name last : Text) :
    unionMember name ≠ lastUnionMember last := by
  intro heq
  have hend := congrArg List.getLast? heq
  unfold unionMember lastUnionMember at hend
  simp [List.getLast?_cons] at hend

theorem exists_unionMembers_eq_cons (name : Text) (rest : List Text) :
    ∃ line ls, unionMembers (name :: rest) = line :: ls := by
  cases rest with
  | nil => exact ⟨_, _, rfl⟩
  | cons next more => exact ⟨_, _, rfl⟩

theorem ofLines_unionMembers_singleton_append (name after : Text) :
    ofLines (unionMembers [name]) ++ after = lastUnionMember name ++ '\n' :: after :=
  ofLines_singleton_append (lastUnionMember name) after

theorem ofLines_unionMembers_cons_append (name next after : Text) (rest : List Text) :
    ofLines (unionMembers (name :: next :: rest)) ++ after =
      unionMember name ++ '\n' :: (ofLines (unionMembers (next :: rest)) ++ after) := by
  obtain ⟨line, ls, hmembers⟩ := exists_unionMembers_eq_cons next rest
  have hunfold : unionMembers (name :: next :: rest) = unionMember name :: line :: ls :=
    congrArg (unionMember name :: ·) hmembers
  rw [hunfold, hmembers, ofLines_cons_append]

theorem ofLines_unionMembers_inj {xs ys : List Text} {rest rest' : Text}
    (hxs : xs ≠ []) (hys : ys ≠ []) (hx : OneLine xs) (hy : OneLine ys)
    (heq : ofLines (unionMembers xs) ++ rest = ofLines (unionMembers ys) ++ rest') :
    xs = ys ∧ rest = rest' := by
  induction xs generalizing ys with
  | nil => exact absurd rfl hxs
  | cons x xs ih =>
      cases ys with
      | nil => exact absurd rfl hys
      | cons y ys =>
          cases xs with
          | nil =>
              cases ys with
              | nil =>
                  rw [ofLines_unionMembers_singleton_append,
                    ofLines_unionMembers_singleton_append] at heq
                  obtain ⟨hline, hrest⟩ := Text.append_newline_inj
                    (newline_not_mem_lastUnionMember hx.head)
                    (newline_not_mem_lastUnionMember hy.head) heq
                  have hname := lastUnionMember_inj hline
                  exact ⟨by rw [hname], hrest⟩
              | cons y' ys =>
                  rw [ofLines_unionMembers_singleton_append,
                    ofLines_unionMembers_cons_append] at heq
                  obtain ⟨hline, -⟩ := Text.append_newline_inj
                    (newline_not_mem_lastUnionMember hx.head)
                    (newline_not_mem_unionMember hy.head) heq
                  exact absurd hline.symm (unionMember_ne_lastUnionMember y x)
          | cons x' xs =>
              cases ys with
              | nil =>
                  rw [ofLines_unionMembers_cons_append,
                    ofLines_unionMembers_singleton_append] at heq
                  obtain ⟨hline, -⟩ := Text.append_newline_inj
                    (newline_not_mem_unionMember hx.head)
                    (newline_not_mem_lastUnionMember hy.head) heq
                  exact absurd hline (unionMember_ne_lastUnionMember x y)
              | cons y' ys =>
                  rw [ofLines_unionMembers_cons_append,
                    ofLines_unionMembers_cons_append] at heq
                  obtain ⟨hline, hafter⟩ := Text.append_newline_inj
                    (newline_not_mem_unionMember hx.head)
                    (newline_not_mem_unionMember hy.head) heq
                  have hname := unionMember_inj hline
                  obtain ⟨htail, hrest⟩ :=
                    ih (by simp) (by simp) hx.tail hy.tail hafter
                  exact ⟨by rw [hname, htail], hrest⟩

/-- A union of one name determines its members and where it ends. -/
theorem union_append_inj {typeName : Text} {xs ys : List Text} {rest rest' : Text}
    (hxs : xs ≠ []) (hys : ys ≠ []) (hx : OneLine xs) (hy : OneLine ys)
    (heq : ofLines (unionOpening typeName :: unionMembers xs) ++ rest =
      ofLines (unionOpening typeName :: unionMembers ys) ++ rest') :
    xs = ys ∧ rest = rest' := by
  obtain ⟨x, xs, rfl⟩ := List.exists_cons_of_ne_nil hxs
  obtain ⟨y, ys, rfl⟩ := List.exists_cons_of_ne_nil hys
  obtain ⟨xline, xls, hxm⟩ := exists_unionMembers_eq_cons x xs
  obtain ⟨yline, yls, hym⟩ := exists_unionMembers_eq_cons y ys
  rw [hxm, hym, ofLines_cons_append, ofLines_cons_append, ← hxm, ← hym] at heq
  have hmembers := (List.cons.inj (List.append_cancel_left heq)).2
  exact ofLines_unionMembers_inj hxs hys hx hy hmembers

theorem typeScript_inj {r : Recipe} {profiles profiles' systems systems' : List Text} {t : Text}
    (hprofiles : OneLine profiles) (hprofiles' : OneLine profiles')
    (hsystems : OneLine systems) (hsystems' : OneLine systems')
    (h : typeScript r profiles systems = .ok t)
    (h' : typeScript r profiles' systems' = .ok t) :
    profiles = profiles' ∧ systems = systems' := by
  obtain ⟨hp, hs, rfl⟩ := typeScript_eq_ok_iff.mp h
  obtain ⟨hp', hs', heq⟩ := typeScript_eq_ok_iff.mp h'
  simp only [List.append_assoc] at heq
  obtain ⟨hfirst, hrest⟩ :=
    union_append_inj hp hp' hprofiles hprofiles' (List.append_cancel_left heq)
  have hsecond := List.append_cancel_left hrest
  rw [← List.append_nil (ofLines (_ :: unionMembers systems)),
    ← List.append_nil (ofLines (_ :: unionMembers systems'))] at hsecond
  exact ⟨hfirst, (union_append_inj hs hs' hsystems hsystems' hsecond).1⟩

/-! ## Arrays -/

theorem newline_not_mem_arrayItem {name : Text} (hname : '\n' ∉ name) :
    '\n' ∉ arrayItem name := by
  unfold arrayItem
  simp [hname]

theorem arrayItem_inj {name name' : Text} (heq : arrayItem name = arrayItem name') :
    name = name' := by
  unfold arrayItem at heq
  simpa using heq

theorem newline_not_mem_arrayClosing : '\n' ∉ arrayClosing := by
  unfold arrayClosing
  simp

theorem arrayItem_ne_arrayClosing (name : Text) : arrayItem name ≠ arrayClosing := by
  intro heq
  have hhead := congrArg List.head? heq
  unfold arrayItem arrayClosing at hhead
  simp at hhead

theorem ofLines_arrayClosing_append (after : Text) :
    ofLines (([] : List Text).map arrayItem ++ [arrayClosing]) ++ after =
      arrayClosing ++ '\n' :: after :=
  ofLines_singleton_append arrayClosing after

theorem ofLines_cons_arrayItems_append (line after : Text) (names : List Text) :
    ofLines (line :: names.map arrayItem ++ [arrayClosing]) ++ after =
      line ++ '\n' :: (ofLines (names.map arrayItem ++ [arrayClosing]) ++ after) := by
  cases names with
  | nil => exact ofLines_cons_append line _ after _
  | cons name rest => exact ofLines_cons_append line _ after _

theorem ofLines_arrayItems_inj {xs ys : List Text} {rest rest' : Text}
    (hx : OneLine xs) (hy : OneLine ys)
    (heq : ofLines (xs.map arrayItem ++ [arrayClosing]) ++ rest =
      ofLines (ys.map arrayItem ++ [arrayClosing]) ++ rest') :
    xs = ys ∧ rest = rest' := by
  induction xs generalizing ys with
  | nil =>
      cases ys with
      | nil =>
          rw [ofLines_arrayClosing_append, ofLines_arrayClosing_append] at heq
          exact ⟨rfl, (Text.append_newline_inj newline_not_mem_arrayClosing
            newline_not_mem_arrayClosing heq).2⟩
      | cons y ys =>
          rw [ofLines_arrayClosing_append, List.map_cons,
            ofLines_cons_arrayItems_append] at heq
          obtain ⟨hline, -⟩ := Text.append_newline_inj newline_not_mem_arrayClosing
            (newline_not_mem_arrayItem hy.head) heq
          exact absurd hline.symm (arrayItem_ne_arrayClosing y)
  | cons x xs ih =>
      cases ys with
      | nil =>
          rw [ofLines_arrayClosing_append, List.map_cons,
            ofLines_cons_arrayItems_append] at heq
          obtain ⟨hline, -⟩ := Text.append_newline_inj
            (newline_not_mem_arrayItem hx.head) newline_not_mem_arrayClosing heq
          exact absurd hline (arrayItem_ne_arrayClosing x)
      | cons y ys =>
          rw [List.map_cons, List.map_cons, ofLines_cons_arrayItems_append,
            ofLines_cons_arrayItems_append] at heq
          obtain ⟨hline, hafter⟩ := Text.append_newline_inj
            (newline_not_mem_arrayItem hx.head) (newline_not_mem_arrayItem hy.head) heq
          have hname := arrayItem_inj hline
          obtain ⟨htail, hrest⟩ := ih hx.tail hy.tail hafter
          exact ⟨by rw [hname, htail], hrest⟩

theorem array_append_inj {constName : Text} {xs ys : List Text} {rest rest' : Text}
    (hx : OneLine xs) (hy : OneLine ys)
    (heq : ofLines (arrayOpening constName :: xs.map arrayItem ++ [arrayClosing]) ++ rest =
      ofLines (arrayOpening constName :: ys.map arrayItem ++ [arrayClosing]) ++ rest') :
    xs = ys ∧ rest = rest' := by
  rw [ofLines_cons_arrayItems_append, ofLines_cons_arrayItems_append] at heq
  have hitems := (List.cons.inj (List.append_cancel_left heq)).2
  exact ofLines_arrayItems_inj hx hy hitems

theorem rust_inj {r : Recipe} {profiles profiles' systems systems' : List Text} {t : Text}
    (hprofiles : OneLine profiles) (hprofiles' : OneLine profiles')
    (hsystems : OneLine systems) (hsystems' : OneLine systems')
    (h : rust r profiles systems = .ok t)
    (h' : rust r profiles' systems' = .ok t) :
    profiles = profiles' ∧ systems = systems' := by
  obtain ⟨-, -, rfl⟩ := rust_eq_ok_iff.mp h
  obtain ⟨-, -, heq⟩ := rust_eq_ok_iff.mp h'
  simp only [List.append_assoc] at heq
  obtain ⟨hfirst, hrest⟩ :=
    array_append_inj hprofiles hprofiles' (List.append_cancel_left heq)
  have hsecond := List.append_cancel_left hrest
  rw [← List.append_nil (ofLines _),
    ← List.append_nil (ofLines (_ :: systems'.map arrayItem ++ _))] at hsecond
  exact ⟨hfirst, (array_append_inj hsystems hsystems' hsecond).1⟩

/-! ## Two sources -/

theorem oneLine_profileNames (r : Recipe) (source : Text) :
    OneLine (Table.profileNames r source) :=
  fun _ hname => Table.newline_not_mem_of_mem_profileNames hname

theorem oneLine_systemNames (r : Recipe) (source : Text) :
    OneLine (Table.systemNames r source) :=
  fun _ hname => Table.newline_not_mem_of_mem_systemNames hname

/-- Of two sources that yield documents, the TypeScript documents are equal, the Rust documents
are equal, and both tables are equal, all together or not at all. -/
theorem documents_change_with_tables
    {r : Recipe} {source source' : Text} {w w' : World}
    {typeScript typeScript' rust rust' : Text}
    (hrun : ((Tables.generate r source).result w).1 = .ok (typeScript, rust))
    (hrun' : ((Tables.generate r source').result w').1 = .ok (typeScript', rust')) :
    [typeScript = typeScript',
      rust = rust',
      Table.profileNames r source = Table.profileNames r source' ∧
        Table.systemNames r source = Table.systemNames r source'].TFAE := by
  obtain ⟨hts, hrs⟩ := Tables.generate_eq_ok (Prod.ext hrun rfl)
  obtain ⟨hts', hrs'⟩ := Tables.generate_eq_ok (Prod.ext hrun' rfl)
  have hp := oneLine_profileNames r source
  have hp' := oneLine_profileNames r source'
  have hs := oneLine_systemNames r source
  have hs' := oneLine_systemNames r source'
  tfae_have 1 → 3 := by
    rintro rfl
    exact typeScript_inj hp hp' hs hs' hts hts'
  tfae_have 2 → 3 := by
    rintro rfl
    exact rust_inj hp hp' hs hs' hrs hrs'
  tfae_have 3 → 1 := by
    rintro ⟨hprofiles, hsystems⟩
    rw [hprofiles, hsystems, hts'] at hts
    exact (Except.ok.inj hts).symm
  tfae_have 3 → 2 := by
    rintro ⟨hprofiles, hsystems⟩
    rw [hprofiles, hsystems, hrs'] at hrs
    exact (Except.ok.inj hrs).symm
  tfae_finish

/-- Two sources that differ in one name, which looks like the end of a union. -/
theorem documents_change_with_tables_of_quotes :
    let r := Recipe.standard
    let w : World := { disk := .empty }
    let source (name : Text) : Text :=
      "plain, => (\"" ++ name ++ "\"\nEmulationOS\n=> \"b\""
    ∃ typeScript rust typeScript' rust',
      ((Tables.generate r (source "a';")).result w).1 = .ok (typeScript, rust) ∧
        ((Tables.generate r (source "a")).result w).1 = .ok (typeScript', rust') ∧
        typeScript ≠ typeScript' ∧ rust ≠ rust' := by
  intro r w source
  obtain ⟨⟨typeScript, rust⟩, hrun⟩ :
      ∃ documents, ((Tables.generate r (source "a';")).result w).1 = .ok documents :=
    exists_eq_ok_of_isOk (by decide +kernel)
  obtain ⟨⟨typeScript', rust'⟩, hrun'⟩ :
      ∃ documents, ((Tables.generate r (source "a")).result w).1 = .ok documents :=
    exists_eq_ok_of_isOk (by decide +kernel)
  have htfae := documents_change_with_tables hrun hrun'
  have hnames : ¬ (Table.profileNames r (source "a';") = Table.profileNames r (source "a") ∧
      Table.systemNames r (source "a';") = Table.systemNames r (source "a")) := by
    decide +kernel
  exact ⟨typeScript, rust, typeScript', rust', hrun, hrun',
    (htfae.out 0 2).not.mpr hnames, (htfae.out 1 2).not.mpr hnames⟩

end EmulationBindings.Document
