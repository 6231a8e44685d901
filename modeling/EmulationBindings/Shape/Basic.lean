import EmulationBindings.Json.Value

/-!
# Shapes

Reading a record out of a JSON object field by field.  All fields are looked at, in the order in
which the record declares them, so that a message can list every one that is wrong.  A string field
takes any string and nothing else.  Counts and switches in words have to be texts, and so do the
fields of a report.
-/

namespace EmulationBindings.Shape

inductive Problem where
  | required
  | notText
  /-- A string that denotes no text. -/
  | unpairedText
  | notList
  | notInteger
  | unclearInteger
  | fractional
  | longInteger
  | infinite
  | notBoolean
  | unclearBoolean
  | notRecord (record : Text)
  deriving DecidableEq

/-- A field, by the names and list positions that lead to it, and what is wrong with it. -/
structure Complaint where
  field : List Text
  problem : Problem
  deriving DecidableEq

structure Fault where
  record : Text
  complaints : List Complaint
  deriving DecidableEq

def Problem.text : Problem → Text
  | .required => "Field required"
  | .notText => "Input should be a valid string"
  | .unpairedText => "Input should be a valid string, unable to parse raw data as a unicode string"
  | .notList => "Input should be a valid list"
  | .notInteger => "Input should be a valid integer"
  | .unclearInteger => "Input should be a valid integer, unable to parse string as an integer"
  | .fractional => "Input should be a valid integer, got a number with a fractional part"
  | .longInteger => "Unable to parse input string as an integer, exceeded maximum size"
  | .infinite => "Input should be a finite number"
  | .notBoolean => "Input should be a valid boolean"
  | .unclearBoolean => "Input should be a valid boolean, unable to interpret input"
  | .notRecord record => "Input should be a valid dictionary or instance of " ++ record

def Complaint.text (c : Complaint) : Text :=
  let place : Text := if c.field = [] then [] else List.intercalate ['.'] c.field ++ "\n"
  place ++ "  " ++ c.problem.text

def Fault.text (f : Fault) : Text :=
  let n := f.complaints.length
  let errors : Text := if n = 1 then " validation error for " else " validation errors for "
  List.intercalate ['\n'] ((Text.ofNat n ++ errors ++ f.record) :: f.complaints.map Complaint.text)

abbrev Checked (α : Type) := Except (List Complaint) α

/-- Takes both values, or gathers the complaints about either. -/
def Checked.apply {α β : Type} (f : Checked (α → β)) (a : Checked α) : Checked β :=
  match f, a with
  | .ok f, .ok a => .ok (f a)
  | .error cs, .ok _ => .error cs
  | .ok _, .error cs => .error cs
  | .error cs, .error cs' => .error (cs ++ cs')

/-- Places complaints about a part under the name of the part. -/
def under {α : Type} (name : Text) : Checked α → Checked α :=
  Except.mapError (List.map fun c => { c with field := name :: c.field })

def complain {α : Type} (p : Problem) : Checked α := .error [⟨[], p⟩]

def string (v : Json) : Checked Json.Str :=
  match v.string? with
  | some s => .ok s
  | none => complain .notText

def optionalString : Json → Checked (Option Json.Str)
  | .null => .ok none
  | v => (string v).map some

def text : Json → Checked Text
  | .string s => .ok s
  | .unpaired _ => complain .unpairedText
  | _ => complain .notText

def items : Json → Checked (List Json)
  | .array vs => .ok vs
  | _ => complain .notList

def each {α : Type} (read : Json → Checked α) (i : Nat) : List Json → Checked (List α)
  | [] => .ok []
  | v :: rest =>
    Checked.apply ((under (Text.ofNat i) (read v)).map List.cons) (each read (i + 1) rest)

def listOf {α : Type} (read : Json → Checked α) (v : Json) : Checked (List α) := do
  each read 0 (← items v)

def required {α : Type} (ms : Json.Members) (name : Text) (read : Json → Checked α) : Checked α :=
  match ms.get? name with
  | some v => under name (read v)
  | none => under name (complain .required)

/-- A member that has a value of its own when it is not there. -/
def withDefault {α : Type} (ms : Json.Members) (name : Text) (value : α) (read : Json → Checked α) :
    Checked α :=
  match ms.get? name with
  | some v => under name (read v)
  | none => .ok value

def members (record : Text) : Json → Checked Json.Members
  | .object ms => .ok ms
  | _ => complain (.notRecord record)

def finish {α : Type} (record : Text) : Checked α → Except Fault α :=
  Except.mapError fun complaints => { record, complaints }

end EmulationBindings.Shape
