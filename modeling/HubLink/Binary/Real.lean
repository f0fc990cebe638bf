import HubLink.Decimal.Convention

/-!
# Readings as binary numbers

`Single` and `Double` are the two widths of a reading, kept as bit patterns: a reading passes through
the link unchanged, NaNs with their payload included, and two readings are the same when their bits
are.  Conversions between the widths and to and from decimal text go through exact arithmetic.
-/

attribute [local instance (high)] instPowNat

namespace HubLink

/-- A 32-bit floating-point number, by its bits. -/
structure Single where
  /-- The bit pattern. -/
  bits : UInt32
  deriving DecidableEq, Repr, Inhabited

/-- A 64-bit floating-point number, by its bits. -/
structure Double where
  /-- The bit pattern. -/
  bits : UInt64
  deriving DecidableEq, Repr, Inhabited

namespace Binary

/-- The text of the value with the given sign and finite magnitude. -/
def text (format : Format) (convention : Decimal.Convention) (negative : Bool) (magnitude : Nat) :
    List Char :=
  let sign := if negative then ['-'] else []
  if magnitude = 0 then sign ++ ['0', '.', '0']
  else sign ++ convention.write (Decimal.shortest format magnitude)

/-- A value that no numeral stands for. -/
inductive NonFinite where
  | nan
  | infinity (negative : Bool)
  deriving DecidableEq, Repr

/-- The name of a value that is not finite. -/
def NonFinite.name : NonFinite → String
  | .nan => "NaN"
  | .infinity negative => if negative then "-inf" else "inf"

/-- What a magnitude stands for, if it is not finite. -/
def nonFinite? (format : Format) (negative : Bool) (magnitude : Nat) : Option NonFinite :=
  if magnitude < format.infinity then none
  else if magnitude = format.infinity then some (.infinity negative)
  else some .nan

end Binary

open Binary (Format)

namespace Single

/-- The bits below the sign. -/
def magnitude (number : Single) : Nat :=
  Format.single.magnitude number.bits.toNat

/-- Whether the sign bit is set. -/
def negative (number : Single) : Bool :=
  Format.single.negative number.bits.toNat

/-- Neither infinite nor a NaN. -/
def isFinite (number : Single) : Bool :=
  number.magnitude < Format.single.infinity

/-- The number with the given sign and magnitude. -/
def ofMagnitude (negative : Bool) (magnitude : Nat) : Single :=
  ⟨UInt32.ofNat (Format.single.pattern negative magnitude)⟩

/-- The number nearest to a signed decimal. -/
def ofDecimal (negative : Bool) (decimal : Decimal.Scaled) : Single :=
  ofMagnitude negative (decimal.nearest Format.single)

/-- Short numbers are positional from the sixth place behind the point to the thirteenth before it. -/
def convention : Decimal.Convention := ⟨-6, 12⟩

/-- The shortest text of a finite number. -/
def text (number : Single) : List Char :=
  Binary.text Format.single convention number.negative number.magnitude

/-- What the number is, if it is not finite. -/
def nonFinite? (number : Single) : Option Binary.NonFinite :=
  Binary.nonFinite? Format.single number.negative number.magnitude

end Single

namespace Double

/-- The bits below the sign. -/
def magnitude (number : Double) : Nat :=
  Format.double.magnitude number.bits.toNat

/-- Whether the sign bit is set. -/
def negative (number : Double) : Bool :=
  Format.double.negative number.bits.toNat

/-- Neither infinite nor a NaN. -/
def isFinite (number : Double) : Bool :=
  number.magnitude < Format.double.infinity

/-- The number with the given sign and magnitude. -/
def ofMagnitude (negative : Bool) (magnitude : Nat) : Double :=
  ⟨UInt64.ofNat (Format.double.pattern negative magnitude)⟩

/-- The number nearest to a signed decimal. -/
def ofDecimal (negative : Bool) (decimal : Decimal.Scaled) : Double :=
  ofMagnitude negative (decimal.nearest Format.double)

/-- Long numbers are positional from the fifth place behind the point to the sixteenth before it. -/
def convention : Decimal.Convention := ⟨-5, 15⟩

/-- The shortest text of a finite number. -/
def text (number : Double) : List Char :=
  Binary.text Format.double convention number.negative number.magnitude

/-- What the number is, if it is not finite. -/
def nonFinite? (number : Double) : Option Binary.NonFinite :=
  Binary.nonFinite? Format.double number.negative number.magnitude

end Double

/-- The long number equal to a finite short one. -/
def Single.widen (number : Single) : Double :=
  .ofMagnitude number.negative
    (Format.double.nearest (Format.single.units number.magnitude) (2 ^ Format.single.depth))

/-- The short number nearest to a finite long one. -/
def Double.narrow (number : Double) : Single :=
  .ofMagnitude number.negative
    (Format.single.nearest (Format.double.units number.magnitude) (2 ^ Format.double.depth))

end HubLink
