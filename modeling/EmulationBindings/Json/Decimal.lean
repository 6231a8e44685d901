import EmulationBindings.Text.Basic

/-!
# Decimal numbers

A number with a point or an exponent is held exactly.  What it is worth is the double nearest to
it: of two that are equally near, the one with the even significand.
-/

namespace EmulationBindings.Json

/-- The number `coefficient * 10 ^ exponent`, with a sign that zero has too. -/
structure Decimal where
  negative : Bool
  coefficient : Nat
  exponent : Int
  deriving DecidableEq

/-- The number `significand * 2 ^ exponent`, with a sign that zero has too. -/
structure Double where
  negative : Bool
  significand : Nat
  exponent : Int
  deriving DecidableEq

/-- The whole number nearest to `n / d`; a half goes to the even neighbour. -/
def roundQuotient (n d : Nat) : Nat :=
  let q := n / d
  let twice := 2 * (n % d)
  if twice < d ∨ (twice = d ∧ q % 2 = 0) then q else q + 1

/-- A quotient times a power of two: `(n * 2 ^ shift, d)` or `(n, d * 2 ^ -shift)`. -/
def scaled (n d : Nat) : Int → Nat × Nat
  | .ofNat shift => (n * Nat.pow 2 shift, d)
  | .negSucc shift => (n, d * Nat.pow 2 (shift + 1))

/-- The exponent that leaves 53 bits to the significand of `n / d`, where one is at hand; the least
one is -1074. -/
def doubleExponent (n d : Nat) : Int :=
  let e : Int := (n.log2 : Int) - d.log2 - 52
  let (n', d') := scaled n d (-e)
  max (-1074) (if n' < d' * Nat.pow 2 52 then e - 1 else e)

/-- The double nearest to `n / d`, or nothing when that lies beyond the largest one. -/
def nearest? (negative : Bool) (n d : Nat) : Option Double :=
  let exponent := doubleExponent n d
  let (n', d') := scaled n d (-exponent)
  let significand := roundQuotient n' d'
  if 971 < exponent ∨ (exponent = 971 ∧ Nat.pow 2 53 ≤ significand) then none
  else some { negative, significand, exponent }

/-- The double that a decimal is worth, or nothing when it is too large for one.  The first two
cases keep powers of ten small: below `10 ^ -330` everything rounds to zero, and above `10 ^ 310`
everything is too large. -/
def Decimal.toDouble? (d : Decimal) : Option Double :=
  let magnitude := (Text.ofNat d.coefficient).length + d.exponent
  if d.coefficient = 0 ∨ magnitude < -330 then
    some { negative := d.negative, significand := 0, exponent := 0 }
  else if 310 < magnitude then none
  else
    match d.exponent with
    | .ofNat e => nearest? d.negative (d.coefficient * Nat.pow 10 e) 1
    | .negSucc e => nearest? d.negative d.coefficient (Nat.pow 10 (e + 1))

/-- The integer that a double is equal to, or nothing when it has a fractional part. -/
def Double.whole? (x : Double) : Option Int :=
  let signed (n : Nat) : Int := if x.negative then -n else n
  match x.exponent with
  | .ofNat e => some (signed (x.significand * Nat.pow 2 e))
  | .negSucc e =>
    let unit := Nat.pow 2 (e + 1)
    if x.significand % unit = 0 then some (signed (x.significand / unit)) else none

end EmulationBindings.Json
