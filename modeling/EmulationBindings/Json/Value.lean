import EmulationBindings.Json.CodeUnit
import EmulationBindings.Json.Decimal

/-!
# JSON values

A number is an integer of any size or a decimal.  A string is a text, or code points of which some
are surrogates, each without a partner.  The members of an object keep the order in which their
names first came; a name that comes again replaces the value.
-/

namespace EmulationBindings

inductive Json where
  | null
  | bool (b : Bool)
  | int (n : Int)
  | decimal (d : Json.Decimal)
  | nan
  | infinity (negative : Bool)
  | string (s : Text)
  /-- A string that denotes no text. -/
  | unpaired (points : List Nat)
  | array (items : List Json)
  | object (members : List (Text × Json))
  deriving Inhabited

namespace Json

abbrev Members := List (Text × Json)

def Members.get? (ms : Members) (name : Text) : Option Json := ms.lookup name

/-- Sets a member: in place when the name is known, else as the last one. -/
def Members.put (ms : Members) (name : Text) (v : Json) : Members :=
  match ms with
  | [] => [(name, v)]
  | (k, w) :: rest => if k = name then (k, v) :: rest else (k, w) :: put rest name v

/-- What a string denotes. -/
inductive Str where
  | text (t : Text)
  | unpaired (points : List Nat)
  deriving DecidableEq

instance : Coe Text Str := ⟨.text⟩

namespace Str

def value : Str → Json
  | .text t => .string t
  | .unpaired points => .unpaired points

/-- The string for a reader, with an escape in place of every surrogate. -/
def shown : Str → Text
  | .text t => t
  | .unpaired points => Json.shown points

end Str

/-- The string that a value is. -/
def string? : Json → Option Str
  | .string s => some (.text s)
  | .unpaired points => some (.unpaired points)
  | _ => none

end Json

end EmulationBindings
