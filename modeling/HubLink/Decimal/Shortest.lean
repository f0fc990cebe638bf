import HubLink.Decimal.Scaled

/-!
# The shortest decimal of a binary number

A finite binary number is written with the fewest digits from which a reader gets the same number
back, and of two such decimals the nearer one; an exact tie goes to the even digit.

Reading back is tested with the reader itself (`Scaled.nearest`), so a printed number returns to its
bits by construction.  On the grid of `n` digits only the two neighbours of the value can read back
if any point does, so two candidates a grid are enough.
-/

attribute [local instance (high)] instPowNat

namespace HubLink.Decimal

open Binary (Format)

/-- The value of a magnitude in units of `10 ^ exponent`, as a quotient of naturals. -/
def inUnits (format : Format) (magnitude : Nat) (exponent : Int) : Nat × Nat :=
  match exponent with
  | .ofNat places => (format.units magnitude, 2 ^ format.depth * 10 ^ places)
  | .negSucc places => (format.units magnitude * 10 ^ (places + 1), 2 ^ format.depth)

/-- The place of the leading digit of a magnitude above zero.  The binary logarithm tells it but for
one, and a comparison settles that one. -/
def leadingPlace (format : Format) (magnitude : Nat) : Int :=
  let log2 := ((format.units magnitude).log2 : Int) - format.depth
  let guess := log2 * 30103 / 100000
  let (numerator, denominator) := inUnits format magnitude (guess + 1)
  if denominator ≤ numerator then guess + 1 else guess

/-- The exact value of a magnitude: division by two is multiplication by five and one more place. -/
def exact (format : Format) (magnitude : Nat) : Scaled :=
  ⟨format.units magnitude * 5 ^ format.depth, -(format.depth : Int)⟩

/-- The best decimal whose last digit stands at the place `exponent` and that reads back to the
magnitude, if there is one. -/
def onGrid? (format : Format) (magnitude : Nat) (exponent : Int) : Option Scaled :=
  let (numerator, denominator) := inUnits format magnitude exponent
  let low : Scaled := ⟨numerator / denominator, exponent⟩
  let high : Scaled := ⟨low.digits + 1, exponent⟩
  let lowReads := low.nearest format == magnitude
  let highReads := high.nearest format == magnitude
  let doubled := 2 * numerator
  let middle := (2 * low.digits + 1) * denominator
  if lowReads && highReads then
    if doubled < middle ∨ (doubled = middle ∧ low.digits % 2 = 0) then some low else some high
  else if lowReads then some low
  else if highReads then some high
  else none

/-- Digits that tell any two neighbours of the format apart. -/
def digitLimit (format : Format) : Nat :=
  (format.fractionBits + 1) * 30103 / 100000 + 2

/-- The shortest decimal that reads back to a finite magnitude above zero. -/
def shortest (format : Format) (magnitude : Nat) : Scaled :=
  let place := leadingPlace format magnitude
  let exponents := (List.range (digitLimit format)).map fun (behind : Nat) => place - behind
  ((exponents.findSome? (onGrid? format magnitude)).getD (exact format magnitude)).strip

end HubLink.Decimal
