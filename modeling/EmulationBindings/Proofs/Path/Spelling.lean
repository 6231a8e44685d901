import EmulationBindings.Proofs.Path.Text
import Mathlib.Logic.Relation

/-!
# Spellings of a path

Behind a component that has a name, slashes and dots more or less are another spelling of the same
path.  Joining a file name to a directory and taking the parent leads back to the directory, and of
the parts that are joined to a path only those from the last absolute one on are left in the result.
-/

namespace EmulationBindings.Path

variable {p : Path}

/-! ## Two texts with a slash between them -/

theorem namesOf_append_slash (before after : Text) :
    namesOf (before ++ '/' :: after) = namesOf before ++ namesOf after := by
  unfold namesOf
  rw [List.splitOn_append_cons_self, List.filter_append]

theorem exists_ne_slash_of_namesOf_ne_nil {t : Text} (ht : namesOf t ≠ []) :
    ∃ c ∈ t, c ≠ '/' := by
  induction t with
  | nil => exact absurd rfl ht
  | cons c t ih =>
      by_cases hc : c = '/'
      · subst hc
        rw [namesOf_cons_slash] at ht
        obtain ⟨d, hd, hslash⟩ := ih ht
        exact ⟨d, List.mem_cons_of_mem _ hd, hslash⟩
      · exact ⟨c, List.mem_cons_self, hc⟩

/-- The slashes in front are all in the first text when it has a name. -/
theorem anchorOf_append_of_named {before : Text} (hnamed : namesOf before ≠ []) (after : Text) :
    anchorOf (before ++ after) = anchorOf before := by
  obtain ⟨c, hc, hslash⟩ := exists_ne_slash_of_namesOf_ne_nil hnamed
  have hends : (before.takeWhile (· = '/')).length ≠ before.length := by
    intro hlength
    have hall := List.takeWhile_eq_self_iff.mp
      ((List.takeWhile_prefix (· = '/')).eq_of_length hlength)
    exact hslash (by simpa using hall c hc)
  unfold anchorOf
  rw [List.takeWhile_append, if_neg hends]

theorem ofText_append_slash {before : Text} (hnamed : namesOf before ≠ []) (after : Text) :
    ofText (before ++ '/' :: after) = ⟨anchorOf before, namesOf before ++ namesOf after⟩ := by
  rw [ofText, anchorOf_append_of_named hnamed, namesOf_append_slash]

/-! ## Respelling -/

/-- The second text has one component more, a dot or an empty one, behind a component with a
name. -/
inductive Padded : Text → Text → Prop
  | doubledSlash {before after : Text} (hnamed : namesOf before ≠ []) :
      Padded (before ++ '/' :: after) (before ++ '/' :: '/' :: after)
  | innerDot {before after : Text} (hnamed : namesOf before ≠ []) :
      Padded (before ++ '/' :: after) (before ++ '/' :: (dot ++ '/' :: after))
  | lastSlash {before : Text} (hnamed : namesOf before ≠ []) : Padded before (before ++ ['/'])
  | lastDot {before : Text} (hnamed : namesOf before ≠ []) : Padded before (before ++ '/' :: dot)

/-- One of the two becomes the other by such components, put in and taken out. -/
def Respells (d d' : Text) : Prop := Relation.EqvGen Padded d d'

theorem Padded.ofText_eq {d d' : Text} (hpadded : Padded d d') : ofText d = ofText d' := by
  have hempty : namesOf [] = [] := rfl
  have hdot : namesOf dot = [] := rfl
  cases hpadded with
  | doubledSlash hnamed =>
      rw [ofText_append_slash hnamed, ofText_append_slash hnamed, namesOf_cons_slash]
  | innerDot hnamed =>
      rw [ofText_append_slash hnamed, ofText_append_slash hnamed, namesOf_append_slash, hdot,
        List.nil_append]
  | lastSlash hnamed =>
      rw [ofText_append_slash hnamed, hempty, List.append_nil]
      rfl
  | lastDot hnamed =>
      rw [ofText_append_slash hnamed, hdot, List.append_nil]
      rfl

theorem Respells.ofText_eq {d d' : Text} (hsame : Respells d d') : ofText d = ofText d' := by
  induction hsame with
  | rel d d' hpadded => exact hpadded.ofText_eq
  | refl d => rfl
  | symm d d' _ ih => exact ih.symm
  | trans d₁ d₂ d₃ _ _ ih ih' => exact ih.trans ih'

/-- Before the first name a slash more can make another root. -/
example : ofText "/a".toList ≠ ofText "//a".toList := by decide

/-! ## A file in a directory -/

/-- A name that a path can have as its last one. -/
structure IsFileName (f : Text) : Prop where
  ne_nil : f ≠ []
  ne_dot : f ≠ dot
  slash_not_mem : '/' ∉ f

theorem ofText_fileName {f : Text} (hf : IsFileName f) : ofText f = ⟨.relative, [f]⟩ := by
  have hplain : Plain ⟨.relative, [f]⟩ := by
    intro name hname
    obtain rfl := List.mem_singleton.mp hname
    exact ⟨hf.ne_nil, hf.ne_dot, hf.slash_not_mem⟩
  have htext : text ⟨.relative, [f]⟩ = f := by simp [text, Anchor.text]
  have hread := ofText_text hplain
  rwa [htext] at hread

/-- The file name `..` is taken for a name like any other. -/
theorem parent_join_fileName {f : Text} (hf : IsFileName f) : (p.join (ofText f)).parent = p := by
  rw [ofText_fileName hf]
  simp [join, parent]

theorem ofText_append_fileName {d f : Text} (hnamed : namesOf d ≠ []) (hf : IsFileName f) :
    ofText (d ++ '/' :: f) = (ofText d).join (ofText f) := by
  have hnames : namesOf f = [f] := congrArg Path.names (ofText_fileName hf)
  rw [ofText_append_slash hnamed, hnames, ofText_fileName hf]
  rfl

/-! ## Joining part by part -/

theorem joinAll_of_relative {parts : List Text} (hparts : ∀ part ∈ parts, part.head? ≠ some '/') :
    p.joinAll parts = ⟨p.anchor, p.names ++ parts.flatMap namesOf⟩ := by
  induction parts generalizing p with
  | nil => simp [joinAll]
  | cons part parts ih =>
      have hrelative : anchorOf part = .relative := by
        have hnot := (isAbsolute_ofText_iff part).not.mpr (hparts part List.mem_cons_self)
        exact not_not.mp hnot
      have hjoin : p.join (ofText part) = ⟨p.anchor, p.names ++ namesOf part⟩ := if_pos hrelative
      calc p.joinAll (part :: parts) = (p.join (ofText part)).joinAll parts := rfl
        _ = ⟨p.anchor, p.names ++ namesOf part ++ parts.flatMap namesOf⟩ := by
          rw [ih fun other hother => hparts other (List.mem_cons_of_mem part hother), hjoin]
        _ = ⟨p.anchor, p.names ++ (part :: parts).flatMap namesOf⟩ := by
          rw [List.flatMap_cons, List.append_assoc]

theorem joinAll_append_of_absolute {part : Text} (hpart : part.head? = some '/')
    (before after : List Text) :
    p.joinAll (before ++ part :: after) = (ofText part).joinAll after := by
  have habsolute : (ofText part).IsAbsolute := (isAbsolute_ofText_iff part).mpr hpart
  have hjoin : (p.joinAll before).join (ofText part) = ofText part := if_neg habsolute
  calc p.joinAll (before ++ part :: after) =
      ((p.joinAll before).join (ofText part)).joinAll after := by
        simp [joinAll, List.foldl_append]
    _ = (ofText part).joinAll after := by rw [hjoin]

end EmulationBindings.Path
