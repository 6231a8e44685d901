import EmulationBindings.Metadata.Outcome
import EmulationBindings.Event

/-!
# Actions

An action acts on a world: the disk, the journal of events and the calls of the build tool.  It
ends with a value or it stops, and what it has done to the world before it stops stays done.
-/

namespace EmulationBindings

structure Call where
  command : List Text
  directory : Path
  deriving DecidableEq

/-- A NUL character keeps a command from being started. -/
def Call.hasNul (c : Call) : Bool := c.command.any (·.contains '\x00') || c.directory.hasNul

structure World where
  disk : Disk
  journal : List Event := []
  calls : List Call := []

abbrev Action := ExceptT Stop (StateM World)

namespace Action

/-- The end of an action and the world after it. -/
def result {α : Type} (t : Action α) (w : World) : Except Stop α × World := Id.run (t.run.run w)

def fail {α : Type} (f : Failure) : Action α := throw (.failed f)

def refuse {α : Type} (r : Refusal) : Action α := throw (.refused r)

def note (e : Event) : Action Unit := modify fun w => { w with journal := w.journal ++ [e] }

def called (c : Call) : Action Unit := modify fun w => { w with calls := w.calls ++ [c] }

def disk : Action Disk := return (← get).disk

def setDisk (d : Disk) : Action Unit := modify fun w => { w with disk := d }

def ofExcept {ε α : Type} (failure : ε → Failure) : Except ε α → Action α
  | .ok a => pure a
  | .error e => fail (failure e)

def ofRefusal {α : Type} : Except Refusal α → Action α
  | .ok a => pure a
  | .error r => refuse r

def denied {α : Type} (failure : SystemError → Failure) (fault : AccessFault) : Action α :=
  match fault.cause with
  | .ok e => fail (failure e)
  | .error r => refuse r

/-- Does this to the disk.  What has been done of it before a fault stays done. -/
def change (failure : SystemError → Failure) (f : Disk → Disk × Option AccessFault) :
    Action Unit := do
  let (d, fault?) := f (← disk)
  setDisk d
  if let some fault := fault? then denied failure fault

/-! ## What each step does to the world -/

@[simp] theorem result_pure {α : Type} (a : α) (w : World) :
    (pure a : Action α).result w = (.ok a, w) := rfl

theorem result_bind {α β : Type} (x : Action α) (f : α → Action β) (w : World) :
    (x >>= f).result w =
      match x.result w with
      | (.ok a, w') => (f a).result w'
      | (.error e, w') => (.error e, w') := by
  simp only [result, ExceptT.run_bind, StateT.run_bind, Id.run]
  cases (x.run.run w : Except Stop α × World) with
  | mk r w' => cases r <;> rfl

@[simp] theorem result_fail {α : Type} (f : Failure) (w : World) :
    (fail f : Action α).result w = (.error (.failed f), w) := rfl

@[simp] theorem result_refuse {α : Type} (r : Refusal) (w : World) :
    (refuse r : Action α).result w = (.error (.refused r), w) := rfl

@[simp] theorem result_note (e : Event) (w : World) :
    (note e).result w = (.ok (), { w with journal := w.journal ++ [e] }) := rfl

@[simp] theorem result_called (c : Call) (w : World) :
    (called c).result w = (.ok (), { w with calls := w.calls ++ [c] }) := rfl

@[simp] theorem result_disk (w : World) : disk.result w = (.ok w.disk, w) := rfl

@[simp] theorem result_setDisk (d : Disk) (w : World) :
    (setDisk d).result w = (.ok (), { w with disk := d }) := rfl

end Action

/-- Where a run takes place: its working directory, what comes of starting the build tool, and what
the system does to the writing of files. -/
structure Site where
  cwd : Location
  outcome : Metadata.Outcome
  trouble : Trouble := .none
  /-- How many directories above a missing one can be made together with it. -/
  ascent : Nat := 990

/-- The same place, with a system that lets every file be written. -/
def Site.untroubled (site : Site) : Site := { site with trouble := .none }

end EmulationBindings
