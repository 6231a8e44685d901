import EmulationBindings.Shape.Basic
import EmulationBindings.Text.Blank

/-!
# Counts and switches

A count is an integer, and a switch is true or false, but either may be given in another way as
long as its meaning is clear: a count as a number without a fractional part, as a truth value or
in words, a switch as zero or one or in words.
-/

namespace EmulationBindings.Shape

/-! ## Integers in words -/

/-- Digits in groups with one underscore between two groups, without the underscores. -/
def digitGroups? (t : Text) : Option Text :=
  let groups := t.splitOn '_'
  if groups.all fun g => !g.isEmpty && g.all Char.isDigit then some groups.flatten else none

/-- The digits of a whole number from its first one that is not zero on.  Any number of underscores
may stand among the zeros in front, but not at the end. -/
def significantDigits? (t : Text) : Option Text :=
  if t.head? = some '0' then
    match t.dropWhile fun c => c = '0' || c = '_' with
    | [] => if t.getLast? = some '0' then some [] else none
    | rest => digitGroups? rest
  else digitGroups? t

def dropZeroFraction (t : Text) : Text :=
  match Text.cut? "." t with
  | some (whole, fraction) => if fraction ≠ [] ∧ fraction.all (· = '0') then whole else t
  | none => t

/-- Integers in words have at most this many characters, leading zeros left out. -/
def maxIntegerLength : Nat := 4300

/-- The integer that a text spells: a sign or none, and digits, of which leading zeros, a fraction
of zeros and the white space around do not count. -/
def integerInWords (t : Text) : Checked Int :=
  let (negative, rest) :=
    match Text.stripWhite t with
    | '-' :: rest => (true, rest)
    | '+' :: rest => (false, rest)
    | rest => (false, rest)
  match significantDigits? (dropZeroFraction rest) with
  | none => complain .unclearInteger
  | some digits =>
    let n : Int := Text.digitsValue digits
    if maxIntegerLength < digits.length + negative.toNat then complain .longInteger
    else .ok (if negative then -n else n)

/-! ## Numbers -/

def isWord (n : Int) : Bool := -(Nat.pow 2 63 : Int) ≤ n && n < Nat.pow 2 63

/-- The integer that a decimal is equal to.  It has to be strictly between the bounds of a word. -/
def decimalInteger (d : Json.Decimal) : Checked Int :=
  match d.toDouble? with
  | none => complain .infinite
  | some x =>
    match x.whole? with
    | none => complain .fractional
    | some n => if isWord n && isWord (n - 1) then .ok n else complain .longInteger

def integer : Json → Checked Int
  | .int n => .ok n
  | .bool b => .ok b.toNat
  | .string s => integerInWords s
  | .unpaired _ => complain .unpairedText
  | .decimal d => decimalInteger d
  | .nan | .infinity _ => complain .infinite
  | .null | .array _ | .object _ => complain .notInteger

/-! ## Switches -/

def booleanOfInteger (n : Int) : Checked Bool :=
  if n = 0 then .ok false else if n = 1 then .ok true else complain .unclearBoolean

def switchWords : List (Text × Bool) :=
  [("0", false), ("f", false), ("false", false), ("n", false), ("no", false), ("off", false),
    ("1", true), ("on", true), ("t", true), ("true", true), ("y", true), ("yes", true)]

def booleanInWords (t : Text) : Checked Bool :=
  match switchWords.lookup (t.map Char.toLower) with
  | some b => .ok b
  | none => complain .unclearBoolean

def boolean : Json → Checked Bool
  | .bool b => .ok b
  | .string s => booleanInWords s
  | .unpaired _ => complain .unpairedText
  | .int n => if isWord n then booleanOfInteger n else complain .notBoolean
  | .decimal d =>
    match decimalInteger d with
    | .ok n => booleanOfInteger n
    | .error _ => complain .notBoolean
  | .null | .nan | .infinity _ | .array _ | .object _ => complain .notBoolean

end EmulationBindings.Shape
