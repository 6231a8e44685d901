import EmulationBindings.Options.Basic
import EmulationBindings.Proofs.Text.Cut
import Mathlib.Data.List.Forall2

/-!
# What arguments say

Arguments say that options are used, one after the other: an option is named by a spelling or by the
beginning of a long one, its value is attached to it or comes next, and short options may be written
together.  There is never more than one way to read them.
-/

namespace EmulationBindings.Options

/-- One use of an option, with the value that comes with it. -/
structure Use where
  flag : Flag
  value : Option Text
  deriving DecidableEq

/-- The text is a spelling of the option, or the beginning of a long one and of no other. -/
def Names (name : Text) (flag : Flag) : Prop :=
  (name, flag) ∈ spellings ∨
    isLong name = true ∧
      ∃ spelling, spellings.filter (fun s => name.isPrefixOf s.1) = [(spelling, flag)]

/-- These letters stand for these short options. -/
def Letters (letters : Text) (flags : List Flag) : Prop :=
  List.Forall₂ (fun c flag => (['-', c], flag) ∈ spellings) letters flags

/-- The arguments start with a use of an option, or with short options that are written together,
and `rest` comes after that. -/
inductive Starts : List Text → List Use → List Text → Prop where
  | switch {name : Text} {flag : Flag} {rest : List Text} (hname : Names name flag)
      (hflag : flag.takesValue = false) : Starts (name :: rest) [⟨flag, none⟩] rest
  | separate {name : Text} {flag : Flag} {rest : List Text} (hname : Names name flag)
      (hflag : flag.takesValue = true) (value : Text) :
      Starts (name :: value :: rest) [⟨flag, some value⟩] rest
  | attached {t name value : Text} {flag : Flag} {rest : List Text} (hname : Names name flag)
      (hflag : flag.takesValue = true) (ht : t = name ++ '=' :: value) :
      Starts (t :: rest) [⟨flag, some value⟩] rest
  | together {t sep letters : Text} {first : Char} {flags : List Flag} {rest : List Text}
      (hletters : Letters (first :: letters) flags) (hmore : letters ≠ [])
      (hsep : sep = [] ∨ sep = ['=']) (ht : t = '-' :: first :: (sep ++ letters)) :
      Starts (t :: rest) (flags.map (⟨·, none⟩)) rest

/-- The arguments say that these options are used, in this order. -/
inductive Says : List Text → List Use → Prop where
  | nothing : Says [] []
  | more {arguments rest : List Text} {first uses : List Use}
      (hfirst : Starts arguments first rest) (hrest : Says rest uses) :
      Says arguments (first ++ uses)

/-! ## Only one reading -/

section

variable {name t : Text} {flag flag' : Flag}

theorem eq_of_mem_spellings (hflag : (name, flag) ∈ spellings)
    (hflag' : (name, flag') ∈ spellings) : flag = flag' := by
  have hsame : ∀ s ∈ spellings, ∀ s' ∈ spellings, s.1 = s'.1 → s.2 = s'.2 := by decide
  exact hsame _ hflag _ hflag' rfl

theorem Names.unique (hname : Names name flag) (hname' : Names name flag') : flag = flag' := by
  have hmem {f : Flag} (hf : (name, f) ∈ spellings) :
      (name, f) ∈ spellings.filter fun s => name.isPrefixOf s.1 :=
    List.mem_filter.mpr ⟨hf, by simp⟩
  rcases hname with hflag | ⟨-, spelling, hfilter⟩
  · rcases hname' with hflag' | ⟨-, spelling', hfilter'⟩
    · exact eq_of_mem_spellings hflag hflag'
    · have hsame := hfilter' ▸ hmem hflag
      simp only [List.mem_singleton, Prod.mk.injEq] at hsame
      exact hsame.2
  · rcases hname' with hflag' | ⟨-, spelling', hfilter'⟩
    · have hsame := hfilter ▸ hmem hflag'
      simp only [List.mem_singleton, Prod.mk.injEq] at hsame
      exact hsame.2.symm
    · rw [hfilter] at hfilter'
      simp only [List.cons.injEq, Prod.mk.injEq, and_true] at hfilter'
      exact hfilter'.2

/-- What names an option begins a spelling. -/
theorem Names.exists_prefix (hname : Names name flag) :
    ∃ spelling, (spelling, flag) ∈ spellings ∧ name <+: spelling := by
  rcases hname with hflag | ⟨-, spelling, hfilter⟩
  · exact ⟨name, hflag, List.prefix_refl name⟩
  · have hmem : (spelling, flag) ∈ spellings.filter fun s => name.isPrefixOf s.1 := by
      rw [hfilter]
      exact List.mem_singleton_self _
    obtain ⟨hspelling, hstart⟩ := List.mem_filter.mp hmem
    exact ⟨spelling, hspelling, List.isPrefixOf_iff_prefix.mp hstart⟩

theorem Names.not_mem_eq (hname : Names name flag) : '=' ∉ name := by
  have hplain : ∀ s ∈ spellings, '=' ∉ s.1 := by decide
  obtain ⟨spelling, hspelling, hstart⟩ := hname.exists_prefix
  exact fun hmem => hplain _ hspelling (hstart.subset hmem)

theorem Names.isLong_of_takesValue (hname : Names name flag) (hflag : flag.takesValue = true) :
    isLong name = true := by
  have hlong : ∀ s ∈ spellings, s.2.takesValue = true → isLong s.1 = true := by decide
  rcases hname with hmem | ⟨hname, -⟩
  · exact hlong _ hmem hflag
  · exact hname

/-- A dash and a letter do not begin a long option. -/
theorem isLong_cons_cons_of_ne {c : Char} (hc : c ≠ '-') (t : Text) :
    isLong ('-' :: c :: t) = false := by
  simp [isLong, Text.after?, Ne.symm hc]

/-- A letter of a short option is neither a dash nor an equals sign. -/
theorem ne_of_letter {c : Char} (hc : (['-', c], flag) ∈ spellings) : c ≠ '-' ∧ c ≠ '=' := by
  have hletter : ∀ s ∈ spellings, s.1 ≠ ['-', '-'] ∧ s.1 ≠ ['-', '='] := by decide
  obtain ⟨hdash, hequals⟩ := hletter _ hc
  exact ⟨fun h => hdash (by rw [h]), fun h => hequals (by rw [h])⟩

theorem Names.length_eq_two (hname : Names name flag) (hlong : isLong name = false) :
    name.length = 2 := by
  have hshort : ∀ s ∈ spellings, isLong s.1 = false → s.1.length = 2 := by decide
  rcases hname with hmem | ⟨hname, -⟩
  · exact hshort _ hmem hlong
  · rw [hlong] at hname
    cases hname

theorem Letters.unique {letters : Text} {flags flags' : List Flag} (hflags : Letters letters flags)
    (hflags' : Letters letters flags') : flags = flags' := by
  induction hflags generalizing flags' with
  | nil =>
      cases hflags'
      rfl
  | cons hflag _ ih =>
      cases hflags' with
      | cons hflag' hmore' => rw [eq_of_mem_spellings hflag hflag', ih hmore']

theorem Letters.tail {c : Char} {letters : Text} {flags : List Flag}
    (hflags : Letters (c :: letters) flags) : Letters letters flags.tail := by
  cases hflags with
  | cons _ hmore => exact hmore

theorem Letters.ne_of_cons {c : Char} {letters : Text} {flags : List Flag}
    (hflags : Letters (c :: letters) flags) : c ≠ '-' ∧ c ≠ '=' := by
  cases hflags with
  | cons hflag _ => exact ne_of_letter hflag

/-- Letters are the same with or without an equals sign in front of them. -/
theorem Letters.eq_of_append {sep sep' letters letters' : Text} {flags flags' : List Flag}
    (hflags : Letters letters flags) (hflags' : Letters letters' flags')
    (hsep : sep = [] ∨ sep = ['=']) (hsep' : sep' = [] ∨ sep' = ['='])
    (happend : sep ++ letters = sep' ++ letters') : letters = letters' := by
  rcases hsep with rfl | rfl <;> rcases hsep' with rfl | rfl
  · exact happend
  · obtain rfl : letters = '=' :: letters' := happend
    exact absurd rfl hflags.ne_of_cons.2
  · obtain rfl : '=' :: letters = letters' := happend
    exact absurd rfl hflags'.ne_of_cons.2
  · exact List.tail_eq_of_cons_eq happend

theorem Names.eq_of_append {name name' value value' : Text} (hname : Names name flag)
    (hname' : Names name' flag') (happend : name ++ '=' :: value = name' ++ '=' :: value') :
    name = name' ∧ value = value' := by
  have hcut := Text.cut?_singleton_of_not_mem hname.not_mem_eq value
  rw [happend, Text.cut?_singleton_of_not_mem hname'.not_mem_eq value'] at hcut
  obtain ⟨hsame, hvalue⟩ := Prod.mk.inj (Option.some.inj hcut)
  exact ⟨hsame.symm, hvalue.symm⟩

theorem isLong_append {start : Text} (hstart : isLong start = true) (more : Text) :
    isLong (start ++ more) = true := by
  obtain ⟨rest, hrest⟩ := Option.isSome_iff_exists.mp hstart
  obtain rfl := Text.after?_eq_some_iff.mp hrest
  rfl

end

section

variable {arguments rest rest' : List Text} {uses uses' : List Use}

theorem Starts.unique (hstarts : Starts arguments uses rest)
    (hstarts' : Starts arguments uses' rest') : uses = uses' ∧ rest = rest' := by
  -- Several options written together name no option, and begin with none that takes a value.
  have hnames {first : Char} {sep letters : Text} {flags : List Flag} {flag : Flag}
      (hletters : Letters (first :: letters) flags) (hmore : letters ≠ [])
      (hname : Names ('-' :: first :: (sep ++ letters)) flag) : False := by
    have hlength := hname.length_eq_two (isLong_cons_cons_of_ne hletters.ne_of_cons.1 _)
    have hpos := List.length_pos_of_ne_nil hmore
    simp only [List.length_cons, List.length_append] at hlength
    omega
  have hattached {first : Char} {letters name value t : Text} {flags : List Flag} {flag : Flag}
      (hletters : Letters (first :: letters) flags) (hname : Names name flag)
      (hflag : flag.takesValue = true) (ht : '-' :: first :: t = name ++ '=' :: value) : False := by
    have hlong := isLong_append (hname.isLong_of_takesValue hflag) ('=' :: value)
    rw [← ht, isLong_cons_cons_of_ne hletters.ne_of_cons.1] at hlong
    cases hlong
  cases hstarts with
  | switch hname hflag =>
      cases hstarts' with
      | switch hname' hflag' => exact ⟨by rw [hname.unique hname'], rfl⟩
      | separate hname' hflag' =>
          rw [hname.unique hname', hflag'] at hflag
          cases hflag
      | attached hname' hflag' ht => exact absurd (by simp [ht]) hname.not_mem_eq
      | together hletters hmore hsep ht => exact (hnames hletters hmore (ht ▸ hname)).elim
  | separate hname hflag =>
      cases hstarts' with
      | switch hname' hflag' =>
          rw [hname.unique hname', hflag'] at hflag
          cases hflag
      | separate hname' hflag' => exact ⟨by rw [hname.unique hname'], rfl⟩
      | attached hname' hflag' ht => exact absurd (by simp [ht]) hname.not_mem_eq
      | together hletters hmore hsep ht => exact (hnames hletters hmore (ht ▸ hname)).elim
  | attached hname hflag ht =>
      cases hstarts' with
      | switch hname' hflag' => exact absurd (by simp [ht]) hname'.not_mem_eq
      | separate hname' hflag' => exact absurd (by simp [ht]) hname'.not_mem_eq
      | attached hname' hflag' ht' =>
          obtain ⟨rfl, rfl⟩ := hname.eq_of_append hname' (ht.symm.trans ht')
          exact ⟨by rw [hname.unique hname'], rfl⟩
      | together hletters hmore hsep ht' =>
          exact (hattached hletters hname hflag (ht'.symm.trans ht)).elim
  | together hletters hmore hsep ht =>
      cases hstarts' with
      | switch hname' hflag' => exact (hnames hletters hmore (ht ▸ hname')).elim
      | separate hname' hflag' => exact (hnames hletters hmore (ht ▸ hname')).elim
      | attached hname' hflag' ht' =>
          exact (hattached hletters hname' hflag' (ht.symm.trans ht')).elim
      | together hletters' hmore' hsep' ht' =>
          obtain ⟨rfl, happend⟩ : _ = _ ∧ _ := by simpa using ht.symm.trans ht'
          obtain rfl := hletters.tail.eq_of_append hletters'.tail hsep hsep' happend
          exact ⟨by rw [hletters.unique hletters'], rfl⟩

theorem Starts.ne_nil (hstarts : Starts arguments uses rest) : arguments ≠ [] := by
  cases hstarts <;> simp

theorem Says.unique (hread : Says arguments uses) (hread' : Says arguments uses') :
    uses = uses' := by
  induction hread generalizing uses' with
  | nothing =>
      cases hread' with
      | nothing => rfl
      | more hfirst hrest => exact absurd rfl hfirst.ne_nil
  | more hfirst _ ih =>
      cases hread' with
      | nothing => exact absurd rfl hfirst.ne_nil
      | more hfirst' hrest' =>
          obtain ⟨rfl, rfl⟩ := hfirst.unique hfirst'
          rw [ih hrest']

end

end EmulationBindings.Options
