import EmulationBindings.Text.Basic

/-!
# Code units of strings

An escape of four digits names one code unit.  A high and a low surrogate next to each other are
one character beyond the basic plane; a surrogate without its partner is a code point, but no
character, and a string that holds one denotes no text.
-/

namespace EmulationBindings.Json

def isHigh (n : Nat) : Bool := 0xD800 ≤ n && n < 0xDC00

def isLow (n : Nat) : Bool := 0xDC00 ≤ n && n < 0xE000

def isSurrogate (n : Nat) : Bool := isHigh n || isLow n

def unitEscape (n : Nat) : Text := "\\u" ++ Text.hex 4 n

/-- Joins each high surrogate with a low one that follows it at once. -/
def codePoints : List Nat → List Nat
  | [] => []
  | [n] => [n]
  | n :: m :: rest =>
    if isHigh n && isLow m then
      (0x10000 + (n - 0xD800) * 0x400 + (m - 0xDC00)) :: codePoints rest
    else n :: codePoints (m :: rest)

/-- The text of code points, with U+FFFD in place of every surrogate. -/
def textOf (points : List Nat) : Text :=
  points.map fun n => if isSurrogate n then '\uFFFD' else .ofNat n

/-- The text of code points, with every surrogate as an escape. -/
def shown (points : List Nat) : Text :=
  points.flatMap fun n => if isSurrogate n then unitEscape n else [.ofNat n]

end EmulationBindings.Json
