import EmulationBindings.Path.Normal
import EmulationBindings.Proofs.Disk.Target
import EmulationBindings.Proofs.Path.Text

/-!
# Normal paths

A normal path has `..` only where nothing is left for it to cancel: at its front, and not above a
root.  Making a path normal does not change where it leads, and it sees nothing in a part that is
normal already, so a destination can be formed in one step or in two.
-/

namespace EmulationBindings.Path

/-- The names are plain, and `..` is in a relative path only, with nothing but `..` before it. -/
structure IsNormal (p : Path) : Prop where
  plain : p.Plain
  ascents : ∀ before, before ++ [dotDot] <+: p.names →
    p.anchor = .relative ∧ ∀ name ∈ before, name = dotDot

/-! ## Pushing names -/

theorem push_subset (anchor : Anchor) (before : List Text) (name : Text) :
    push anchor before name ⊆ name :: before := by
  unfold push
  split
  · exact List.Subset.refl _
  · next hname =>
    have hname : name = dotDot := not_not.mp hname
    cases before with
    | nil =>
        simp only
        split
        · simp [hname]
        · exact List.nil_subset _
    | cons last rest =>
        simp only
        split
        · simp [hname]
        · intro other hother
          simp [hother]

theorem foldl_push_subset (anchor : Anchor) (names before : List Text) :
    names.foldl (push anchor) before ⊆ names ++ before := by
  induction names generalizing before with
  | nil => exact List.Subset.refl before
  | cons name rest ih =>
      intro other hother
      have hmem := ih (push anchor before name) hother
      rcases List.mem_append.mp hmem with hrest | hpush
      · simp [hrest]
      · have hsub := push_subset anchor before name hpush
        rcases List.mem_cons.mp hsub with rfl | hbefore
        · simp
        · simp [hbefore]

theorem normalize_names_subset (p : Path) : p.normalize.names ⊆ p.names := by
  intro name hname
  have hmem := foldl_push_subset p.anchor p.names [] (List.mem_reverse.mp hname)
  simpa using hmem

theorem normalize_append_of_ne (anchor : Anchor) (before : List Text) {name : Text}
    (hname : name ≠ dotDot) :
    normalize ⟨anchor, before ++ [name]⟩ =
      ⟨anchor, (normalize ⟨anchor, before⟩).names ++ [name]⟩ := by
  simp [normalize, push, hname]

/-- Names in reverse among which every `..` has come to stay. -/
def Settled (anchor : Anchor) : List Text → Prop
  | [] => True
  | name :: before =>
    (name = dotDot → anchor = .relative ∧ ∀ other ∈ before, other = dotDot) ∧
      Settled anchor before

theorem push_of_settled {anchor : Anchor} {before : List Text} {name : Text}
    (hsettled : Settled anchor (name :: before)) :
    push anchor before name = name :: before := by
  unfold push
  by_cases hname : name = dotDot
  · obtain ⟨hrelative, hbefore⟩ := hsettled.1 hname
    rw [if_neg (not_not.mpr hname)]
    cases before with
    | nil => simp [hrelative, hname]
    | cons last rest => simp [hbefore last List.mem_cons_self, hname]
  · rw [if_pos hname]

theorem settled_push {anchor : Anchor} {before : List Text} (hbefore : Settled anchor before)
    (name : Text) : Settled anchor (push anchor before name) := by
  unfold push
  by_cases hname : name = dotDot
  · rw [if_neg (not_not.mpr hname)]
    cases before with
    | nil =>
        by_cases hrelative : anchor = .relative
        · simp [hrelative, Settled]
        · simp [hrelative, Settled]
    | cons last rest =>
        by_cases hlast : last = dotDot
        · obtain ⟨hrelative, hrest⟩ := hbefore.1 hlast
          simp only [hlast, if_true]
          refine ⟨fun _ => ⟨hrelative, ?_⟩, hlast ▸ hbefore⟩
          simpa using hrest
        · simp only [hlast, if_false]
          exact hbefore.2
  · rw [if_pos hname]
    exact ⟨fun h => absurd h hname, hbefore⟩

theorem settled_foldl_push {anchor : Anchor} {before : List Text}
    (hbefore : Settled anchor before) (names : List Text) :
    Settled anchor (names.foldl (push anchor) before) := by
  induction names generalizing before with
  | nil => exact hbefore
  | cons name rest ih => exact ih (settled_push hbefore name)

theorem settled_normalize (p : Path) :
    Settled p.anchor (p.names.foldl (push p.anchor) []) := by
  have hnil : Settled p.anchor [] := trivial
  exact settled_foldl_push hnil p.names

/-- Pushing settled names again builds them up as they were. -/
theorem foldl_push_reverse_of_settled {anchor : Anchor} {stack : List Text}
    (hsettled : Settled anchor stack) : stack.reverse.foldl (push anchor) [] = stack := by
  induction stack with
  | nil => rfl
  | cons name before ih =>
      rw [List.reverse_cons, List.foldl_append, ih hsettled.2]
      exact push_of_settled hsettled

theorem ascents_of_settled {anchor : Anchor} {stack before : List Text}
    (hsettled : Settled anchor stack) (hbefore : before ++ [dotDot] <+: stack.reverse) :
    anchor = .relative ∧ ∀ name ∈ before, name = dotDot := by
  have hsuffix : dotDot :: before.reverse <:+ stack := by
    rw [← List.reverse_prefix]
    simpa using hbefore
  clear hbefore
  induction stack with
  | nil => simp at hsuffix
  | cons name rest ih =>
      rcases List.suffix_cons_iff.mp hsuffix with heq | hsuffix
      · obtain ⟨hname, hrest⟩ := List.cons.inj heq
        obtain ⟨hrelative, hall⟩ := hsettled.1 hname.symm
        refine ⟨hrelative, fun other hother => hall other ?_⟩
        rw [← hrest]
        exact List.mem_reverse.mpr hother
      · exact ih hsettled.2 hsuffix

/-! ## Where pushed names lead -/

theorem foldl_advance_push {anchor : Anchor} {origin : Location}
    (horigin : anchor ≠ .relative → origin = []) (before : List Text) (name : Text) :
    (push anchor before name).reverse.foldl advance origin =
      advance (before.reverse.foldl advance origin) name := by
  unfold push
  by_cases hname : name = dotDot
  · rw [if_neg (not_not.mpr hname)]
    cases before with
    | nil =>
        by_cases hrelative : anchor = .relative
        · simp [hrelative, hname]
        · simp [hrelative, hname, horigin hrelative, advance]
    | cons last rest =>
        by_cases hlast : last = dotDot
        · simp [hlast, hname]
        · simp [hlast, hname, advance]
  · rw [if_pos hname]
    simp

theorem target_normalize (cwd : Location) (p : Path) :
    p.normalize.target cwd = p.target cwd := by
  have horigin : p.anchor ≠ .relative → Disk.origin cwd p.anchor = [] := by
    intro hanchor
    cases hp : p.anchor with
    | relative => exact absurd hp hanchor
    | root => rfl
    | doubleRoot => rfl
  have hfold (before : List Text) (names : List Text) :
      (names.foldl (push p.anchor) before).reverse.foldl advance (Disk.origin cwd p.anchor) =
        names.foldl advance (before.reverse.foldl advance (Disk.origin cwd p.anchor)) := by
    induction names generalizing before with
    | nil => rfl
    | cons name rest ih =>
        rw [List.foldl_cons, List.foldl_cons, ih, foldl_advance_push horigin]
  exact hfold [] p.names

/-! ## Normal forms -/

theorem isNormal_normalize {p : Path} (hp : p.Plain) : p.normalize.IsNormal where
  plain := hp.of_subset (normalize_names_subset p)
  ascents _ hbefore := ascents_of_settled (settled_normalize p) hbefore

/-- What is made normal already need not be made normal again. -/
theorem normalize_join_normalize (p q : Path) :
    (p.normalize.join q).normalize = (p.join q).normalize := by
  have hagain : p.normalize.names.foldl (push p.anchor) [] =
      p.names.foldl (push p.anchor) [] :=
    foldl_push_reverse_of_settled (settled_normalize p)
  unfold join
  split
  · simp only [normalize, List.foldl_append] at hagain ⊢
    rw [hagain]
  · rfl

/-- A destination is a normal path to the place that the directory and what is seen from it lead to,
written as it is read, and absolute when one of them is.  One seen from another is the one that
both steps together lead to. -/
theorem destinations_normal_and_composed (m a b : Text) :
    ((ofText m).destination a).IsNormal ∧
      (∀ cwd, ((ofText m).destination a).target cwd = ((ofText m).join (ofText a)).target cwd) ∧
      ofText ((ofText m).destination a).text = (ofText m).destination a ∧
      (((ofText m).destination a).text = dot ↔ (ofText m).destination a = ⟨.relative, []⟩) ∧
      (((ofText m).destination a).IsAbsolute ↔ m.head? = some '/' ∨ a.head? = some '/') ∧
      ((ofText m).destination a).destination b =
        (ofText m).destination ((ofText a).join (ofText b)).text ∧
      ((ofText m).destination a).destination [] = (ofText m).destination a := by
  have hjoin : ((ofText m).join (ofText a)).Plain := (plain_ofText m).join (plain_ofText a)
  have hnormal : ((ofText m).destination a).IsNormal := isNormal_normalize hjoin
  have htwo (b : Text) : ((ofText m).destination a).destination b =
      (ofText m).destination ((ofText a).join (ofText b)).text := by
    unfold destination
    rw [normalize_join_normalize, join_assoc,
      ofText_text ((plain_ofText a).join (plain_ofText b))]
  refine ⟨hnormal, fun cwd => target_normalize cwd _, ofText_text hnormal.plain,
    text_eq_dot_iff hnormal.plain, ?_, htwo b, ?_⟩
  · rw [← isAbsolute_ofText_iff, ← isAbsolute_ofText_iff, ← isAbsolute_join_iff]
    rfl
  · have hself : (ofText a).join (ofText []) = ofText a := join_empty (ofText a)
    rw [htwo [], hself]
    unfold destination
    rw [ofText_text (plain_ofText a)]

/-- Above a root there is nothing to go up to. -/
example : ((ofText "//a/./b").destination "../../../c//d").text = "//c/d" := by decide +kernel

end EmulationBindings.Path
