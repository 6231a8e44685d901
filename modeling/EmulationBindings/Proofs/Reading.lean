import EmulationBindings.Action

/-!
# Actions that only read

Most of a run looks at the disk and changes nothing on it.  Such an action is known by what it
ends with on each disk, whatever it notes on the way, and two of them in a row are known by
their two functions in a row.
-/

namespace EmulationBindings

/-! ## Values and errors -/

section Except

variable {ε ε' α β : Type}

theorem exists_eq_ok_of_isOk {x : Except ε α} (hok : x.isOk = true) :
    ∃ a, x = .ok a := by
  cases x with
  | error e => simp [Except.isOk, Except.toBool] at hok
  | ok a => exact ⟨a, rfl⟩

theorem exists_of_bind_eq_ok {x : Except ε α} {next : α → Except ε β} {b : β}
    (hbind : (x >>= next) = .ok b) :
    ∃ a, x = .ok a ∧ next a = .ok b := by
  cases x with
  | error e => simp [bind, Except.bind] at hbind
  | ok a => exact ⟨a, rfl, hbind⟩

theorem bind_of_eq_ok {x : Except ε α} {a : α} (hx : x = .ok a) (next : α → Except ε β) :
    (x >>= next) = next a := by
  rw [hx]
  rfl

theorem or_of_bind_eq_error {x : Except ε α} {next : α → Except ε β} {e : ε}
    (hbind : (x >>= next) = .error e) :
    x = .error e ∨ ∃ a, x = .ok a ∧ next a = .error e := by
  cases x with
  | error e' =>
      obtain rfl : e' = e := Except.error.inj hbind
      exact .inl rfl
  | ok a => exact .inr ⟨a, rfl, hbind⟩

@[simp] theorem mapError_ok (f : ε → ε') (a : α) :
    (Except.ok a : Except ε α).mapError f = .ok a := rfl

@[simp] theorem mapError_error (f : ε → ε') (e : ε) :
    (Except.error e : Except ε α).mapError f = .error (f e) := rfl

theorem mapError_eq_ok_iff {x : Except ε α} {f : ε → ε'} {a : α} :
    x.mapError f = .ok a ↔ x = .ok a := by
  cases x <;> simp

theorem mapError_eq_error_iff {x : Except ε α} {f : ε → ε'} {e' : ε'} :
    x.mapError f = .error e' ↔ ∃ e, x = .error e ∧ f e = e' := by
  cases x <;> simp

end Except

namespace Action

variable {α β : Type}

/-- Ends as `f` says of the disk, and leaves the disk as it was. -/
def Reads (x : Action α) (f : Disk → Except Stop α) : Prop :=
  ∀ w, (x.result w).1 = f w.disk ∧ (x.result w).2.disk = w.disk

theorem Reads.of_result {x : Action α} {f : Disk → Except Stop α}
    (hx : x.Reads f) {w w' : World} {r : Except Stop α}
    (hresult : x.result w = (r, w')) :
    r = f w.disk ∧ w'.disk = w.disk := by
  simpa [hresult] using hx w

theorem reads_pure (a : α) : (pure a : Action α).Reads fun _ => .ok a :=
  fun _ => ⟨rfl, rfl⟩

theorem reads_fail (f : Failure) :
    (fail f : Action α).Reads fun _ => .error (.failed f) :=
  fun _ => ⟨rfl, rfl⟩

theorem reads_refuse (r : Refusal) :
    (refuse r : Action α).Reads fun _ => .error (.refused r) :=
  fun _ => ⟨rfl, rfl⟩

theorem reads_note (e : Event) : (note e).Reads fun _ => .ok () :=
  fun _ => ⟨rfl, rfl⟩

theorem reads_called (c : Call) : (called c).Reads fun _ => .ok () :=
  fun _ => ⟨rfl, rfl⟩

theorem reads_disk : disk.Reads fun d => .ok d :=
  fun _ => ⟨rfl, rfl⟩

theorem reads_lift (e : Except Stop α) : (liftM e : Action α).Reads fun _ => e :=
  fun _ => ⟨rfl, rfl⟩

theorem reads_ofExcept {ε : Type} (failure : ε → Failure) (e : Except ε α) :
    (ofExcept failure e).Reads fun _ => e.mapError fun fault => .failed (failure fault) := by
  cases e with
  | ok a => exact reads_pure a
  | error fault => exact reads_fail (failure fault)

theorem reads_ofRefusal (e : Except Refusal α) :
    (ofRefusal e).Reads fun _ => e.mapError .refused := by
  cases e with
  | ok a => exact reads_pure a
  | error r => exact reads_refuse r

def stopOf (failure : SystemError → Failure) (fault : AccessFault) : Stop :=
  match fault.cause with
  | .ok e => .failed (failure e)
  | .error r => .refused r

theorem exists_of_stopOf_eq_failed {failure : SystemError → Failure} {fault : AccessFault}
    {f : Failure} (hstop : stopOf failure fault = .failed f) :
    ∃ error, f = failure error := by
  unfold stopOf at hstop
  split at hstop
  · next e _ => exact ⟨e, (Stop.failed.inj hstop).symm⟩
  · simp at hstop

theorem result_denied (failure : SystemError → Failure) (fault : AccessFault) (w : World) :
    (denied failure fault : Action α).result w = (.error (stopOf failure fault), w) := by
  cases fault <;> rfl

theorem result_change (failure : SystemError → Failure) (f : Disk → Disk × Option AccessFault)
    (w : World) :
    (change failure f).result w =
      match f w.disk with
      | (d, none) => (.ok (), { w with disk := d })
      | (d, some fault) => (.error (stopOf failure fault), { w with disk := d }) := by
  unfold change
  simp only [result_bind, result_disk]
  cases f w.disk with
  | mk d fault? =>
      simp only [result_setDisk]
      cases fault? with
      | none => rfl
      | some fault => exact result_denied failure fault _

theorem Reads.bind {x : Action α} {f : Disk → Except Stop α}
    {next : α → Action β} {g : α → Disk → Except Stop β}
    (hx : x.Reads f) (hnext : ∀ a, (next a).Reads (g a)) :
    (x >>= next).Reads fun d => f d >>= fun a => g a d := by
  intro w
  rw [result_bind]
  cases hresult : x.result w with
  | mk r w' =>
      obtain ⟨hr, hdisk⟩ := hx.of_result hresult
      change _ = (f w.disk >>= fun a => g a w.disk) ∧ _
      rw [← hr]
      cases r with
      | error e => exact ⟨rfl, hdisk⟩
      | ok a =>
          obtain ⟨hend, hkept⟩ := hnext a w'
          rw [hdisk] at hend hkept
          exact ⟨hend, hkept⟩

theorem Reads.mapM {x : α → Action β} {f : α → Disk → Except Stop β}
    (hx : ∀ a, (x a).Reads (f a)) (as : List α) :
    (as.mapM x).Reads fun d => as.mapM fun a => f a d := by
  induction as with
  | nil => exact reads_pure []
  | cons a rest ih =>
      simp only [List.mapM_cons]
      exact (hx a).bind fun b => ih.bind fun bs => reads_pure (b :: bs)

/-! ## Taking a run apart -/

theorem ok_of_bind {x : Action α} {next : α → Action β} {w w'' : World} {b : β}
    (hrun : (x >>= next).result w = (.ok b, w'')) :
    ∃ a w', x.result w = (.ok a, w') ∧ (next a).result w' = (.ok b, w'') := by
  rw [result_bind] at hrun
  cases hx : x.result w with
  | mk r w' =>
      rw [hx] at hrun
      cases r with
      | error e => simp at hrun
      | ok a => exact ⟨a, w', rfl, hrun⟩

theorem exists_result_of_isOk {x : Action α} {w : World}
    (hok : (x.result w).1.isOk = true) :
    ∃ a w', x.result w = (.ok a, w') := by
  obtain ⟨a, ha⟩ := exists_eq_ok_of_isOk hok
  cases hx : x.result w with
  | mk r w' =>
      rw [hx] at ha
      exact ⟨a, w', by rw [← ha]⟩

/-- Is this the end of an action that succeeds, with a value and a world as they should be? -/
def endsWith (p : α → World → Bool) : Except Stop α × World → Bool
  | (.ok a, w) => p a w
  | (.error _, _) => false

theorem exists_result_of_endsWith {x : Action α} {w : World} {p : α → World → Bool}
    (hends : endsWith p (x.result w) = true) :
    ∃ a w', x.result w = (.ok a, w') ∧ p a w' = true := by
  cases hx : x.result w with
  | mk r w' =>
      rw [hx] at hends
      cases r with
      | error e => simp [endsWith] at hends
      | ok a => exact ⟨a, w', rfl, hends⟩

def stage? : Except Stop α → Option Stage
  | .error (.failed f) => some f.stage
  | _ => none

theorem exists_result_of_stage? {x : Action α} {w : World} {s : Stage}
    (hstage : stage? (x.result w).1 = some s) :
    ∃ f w', x.result w = (.error (.failed f), w') ∧ f.stage = s := by
  cases hx : x.result w with
  | mk r w' =>
      rw [hx] at hstage
      unfold stage? at hstage
      split at hstage
      · next f hr =>
        obtain rfl : r = .error (.failed f) := hr
        exact ⟨f, w', rfl, Option.some.inj hstage⟩
      · simp at hstage

theorem result_mapM_cons (x : α → Action β) (a : α) (rest : List α) (w : World) :
    ((a :: rest).mapM x).result w =
      match (x a).result w with
      | (.ok b, w₁) =>
        (((rest.mapM x).result w₁).1.map (b :: ·), ((rest.mapM x).result w₁).2)
      | (.error e, w₁) => (.error e, w₁) := by
  simp only [List.mapM_cons, result_bind]
  cases (x a).result w with
  | mk first w₁ =>
      cases first with
      | error e => rfl
      | ok b =>
          simp only
          cases (rest.mapM x).result w₁ with
          | mk more w₂ => cases more <;> rfl

theorem error_of_bind {x : Action α} {next : α → Action β} {w w'' : World} {e : Stop}
    (hrun : (x >>= next).result w = (.error e, w'')) :
    x.result w = (.error e, w'') ∨
      ∃ a w', x.result w = (.ok a, w') ∧ (next a).result w' = (.error e, w'') := by
  rw [result_bind] at hrun
  cases hx : x.result w with
  | mk r w' =>
      rw [hx] at hrun
      cases r with
      | error e' =>
          left
          simpa using hrun
      | ok a => exact .inr ⟨a, w', rfl, hrun⟩

end Action

end EmulationBindings
