import HubLink.Binary.Format

/-!
# Scaled decimals

A decimal is a whole number times a power of ten.  This is what a numeral denotes before it is
rounded to a binary format, and what a printer chooses before it sets the point.
-/

attribute [local instance (high)] instPowNat

namespace HubLink.Decimal

/-- The number `digits * 10 ^ exponent`. -/
structure Scaled where
  /-- The digits, read as one whole number. -/
  digits : Nat
  /-- The place of the last digit. -/
  exponent : Int
  deriving DecidableEq, Repr

namespace Scaled

/-- The number as a quotient of naturals: the numerator and the denominator. -/
def fraction (decimal : Scaled) : Nat × Nat :=
  match decimal.exponent with
  | .ofNat places => (decimal.digits * 10 ^ places, 1)
  | .negSucc places => (decimal.digits, 10 ^ (places + 1))

/-- The magnitude nearest to the number.  A number that is out of reach by its exponent alone is
settled without writing it out: `10 ^ depth` exceeds every finite value of a format, and half the
least positive value exceeds `10 ^ (-depth)`. -/
def nearest (decimal : Scaled) (format : Binary.Format) : Nat :=
  if decimal.digits = 0 then 0
  else if (format.depth : Int) < decimal.exponent then format.infinity
  else if decimal.exponent + decimal.digits.log2 + 1 < -(format.depth : Int) then 0
  else
    let (numerator, denominator) := decimal.fraction
    format.nearest numerator denominator

/-- Moves trailing zeros of the digits into the exponent. -/
def strip (decimal : Scaled) : Scaled :=
  if h : 0 < decimal.digits ∧ decimal.digits % 10 = 0 then
    strip ⟨decimal.digits / 10, decimal.exponent + 1⟩
  else decimal
termination_by decimal.digits
decreasing_by
  omega

end Scaled

end HubLink.Decimal
