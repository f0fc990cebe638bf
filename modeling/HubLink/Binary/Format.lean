/-!
# Binary number formats

A reading is a binary floating-point number of 32 or 64 bits.  Both widths have one layout (a sign,
an exponent, a fraction), so they are treated as one family, and everything about magnitudes is
exact arithmetic on natural numbers.

A magnitude is the bit pattern without its sign.  Magnitudes count up through the representable
values in ascending order, so rounding to nearest (`Format.nearest`) can answer with a magnitude
directly: rounding up past the end of a binade lands on the first magnitude of the next one, and
past the largest finite value on infinity.
-/

-- powers are those of the core library, here and wherever the program computes one
attribute [local instance (high)] instPowNat

namespace HubLink.Binary

/-- The widths of the two lower fields of a format. -/
structure Format where
  /-- Bits of the fraction. -/
  fractionBits : Nat
  /-- Bits of the exponent. -/
  exponentBits : Nat
  deriving DecidableEq, Repr

namespace Format

/-- The 32-bit format. -/
def single : Format := ⟨23, 8⟩

/-- The 64-bit format. -/
def double : Format := ⟨52, 11⟩

/-- The least positive value of the format is `2 ^ (-depth)`. -/
def depth (format : Format) : Nat :=
  2 ^ (format.exponentBits - 1) - 2 + format.fractionBits

/-- The magnitude of infinity; every larger magnitude is a NaN. -/
def infinity (format : Format) : Nat :=
  (2 ^ format.exponentBits - 1) * 2 ^ format.fractionBits

/-- The magnitude just past all bit patterns; also the weight of the sign bit. -/
def signBit (format : Format) : Nat :=
  2 ^ (format.exponentBits + format.fractionBits)

/-- The bits of a pattern below its sign. -/
def magnitude (format : Format) (pattern : Nat) : Nat :=
  pattern % format.signBit

/-- Whether the sign bit of a pattern is set. -/
def negative (format : Format) (pattern : Nat) : Bool :=
  format.signBit ≤ pattern

/-- The bit pattern with the given sign and magnitude. -/
def pattern (format : Format) (negative : Bool) (magnitude : Nat) : Nat :=
  magnitude + if negative then format.signBit else 0

/-- The value of a finite magnitude, counted in least positive values. -/
def units (format : Format) (magnitude : Nat) : Nat :=
  let exponent := magnitude / 2 ^ format.fractionBits
  let fraction := magnitude % 2 ^ format.fractionBits
  if exponent = 0 then fraction else (2 ^ format.fractionBits + fraction) * 2 ^ (exponent - 1)

end Format

/-- The quotient rounded to the nearest integer, a half to the even neighbour. -/
def roundHalfEven (numerator denominator : Nat) : Nat :=
  let quotient := numerator / denominator
  let remainder := numerator % denominator
  if 2 * remainder < denominator ∨ (2 * remainder = denominator ∧ quotient % 2 = 0) then quotient
  else quotient + 1

/-- The magnitude nearest to `numerator / denominator`, a tie to the even magnitude. -/
def Format.nearest (format : Format) (numerator denominator : Nat) : Nat :=
  let scaled := numerator * 2 ^ format.depth
  let binade := (scaled / denominator).log2 - format.fractionBits
  min format.infinity
    (binade * 2 ^ format.fractionBits + roundHalfEven scaled (denominator * 2 ^ binade))

end HubLink.Binary
