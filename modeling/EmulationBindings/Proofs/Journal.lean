import EmulationBindings.Proofs.Reading

/-!
# Documents named in the journal

An action names every document that it writes in the journal.  Most actions note other things only;
such actions are closed under sequence, so what a run names in its journal comes from the steps
that write.
-/

namespace EmulationBindings

/-- The document that was written, when this is what the event says. -/
def Event.documentWritten? : Event → Option Path
  | .artifactWritten path _ => some path
  | _ => none

/-- The documents that the journal says were written, in this order. -/
def World.documentsWritten (w : World) : List Path := w.journal.filterMap Event.documentWritten?

namespace Action

variable {α β : Type}

/-- Notes of no document that it was written. -/
def NamesNone (x : Action α) : Prop :=
  ∀ w, (x.result w).2.documentsWritten = w.documentsWritten

theorem NamesNone.of_result {x : Action α} (hx : x.NamesNone) {w w' : World} {r : Except Stop α}
    (hresult : x.result w = (r, w')) :
    w'.documentsWritten = w.documentsWritten := by
  simpa [hresult] using hx w

theorem namesNone_pure (a : α) : (pure a : Action α).NamesNone :=
  fun _ => rfl

theorem namesNone_fail (f : Failure) : (fail f : Action α).NamesNone :=
  fun _ => rfl

theorem namesNone_refuse (r : Refusal) : (refuse r : Action α).NamesNone :=
  fun _ => rfl

theorem namesNone_note {e : Event} (he : e.documentWritten? = none) : (note e).NamesNone := by
  intro w
  simp [World.documentsWritten, he]

theorem namesNone_called (c : Call) : (called c).NamesNone :=
  fun _ => rfl

theorem namesNone_disk : disk.NamesNone :=
  fun _ => rfl

theorem namesNone_lift (e : Except Stop α) : (liftM e : Action α).NamesNone :=
  fun _ => rfl

theorem namesNone_ofExcept {ε : Type} (failure : ε → Failure) (e : Except ε α) :
    (ofExcept failure e).NamesNone := by
  cases e with
  | ok a => exact namesNone_pure a
  | error fault => exact namesNone_fail (failure fault)

theorem namesNone_ofRefusal (e : Except Refusal α) : (ofRefusal e).NamesNone := by
  cases e with
  | ok a => exact namesNone_pure a
  | error r => exact namesNone_refuse r

theorem namesNone_denied (failure : SystemError → Failure) (fault : AccessFault) :
    (denied failure fault : Action α).NamesNone := by
  intro w
  rw [result_denied]

theorem NamesNone.bind {x : Action α} {next : α → Action β}
    (hx : x.NamesNone) (hnext : ∀ a, (next a).NamesNone) :
    (x >>= next).NamesNone := by
  intro w
  rw [result_bind]
  cases hresult : x.result w with
  | mk r w' =>
      have hw' := hx.of_result hresult
      cases r with
      | error e => exact hw'
      | ok a => exact (hnext a w').trans hw'

theorem NamesNone.mapM {x : α → Action β} (hx : ∀ a, (x a).NamesNone) (as : List α) :
    (as.mapM x).NamesNone := by
  induction as with
  | nil => exact namesNone_pure []
  | cons a rest ih =>
      simp only [List.mapM_cons]
      exact (hx a).bind fun b => ih.bind fun bs => namesNone_pure (b :: bs)

end Action

end EmulationBindings
