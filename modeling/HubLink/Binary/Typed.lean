import HubLink.Binary.Real
import HubLink.Text.Whole

/-!
# Readings typed by people

A reading may be typed as a decimal with a point and an exponent, either of them left out, or as the
name of a value that no decimal stands for.  Unlike in JSON, digits may be missing on one side of the
point, zeros may lead, and a decimal out of reach is infinite.
-/

attribute [local instance (high)] instPowNat

namespace HubLink.Decimal

/-- The exponent of a typed decimal, from behind its letter. -/
def typedExponent? : List Char → Option Int
  | '-' :: digits => (Text.digitsNat? digits).map fun n => -(n : Int)
  | '+' :: digits => (Text.digitsNat? digits).map Int.ofNat
  | digits => (Text.digitsNat? digits).map Int.ofNat

/-- What stands behind the digits of a typed decimal: nothing, or an exponent. -/
def typedPower? : List Char → Option Int
  | [] => some 0
  | c :: rest => if c = 'e' ∨ c = 'E' then typedExponent? rest else none

/-- The decimal that an unsigned text stands for. -/
def Scaled.ofTyped? (text : List Char) : Option Scaled := do
  let (whole, rest) := text.span Char.isDigit
  let (fraction, rest) := match rest with
    | '.' :: rest => rest.span Char.isDigit
    | rest => ([], rest)
  let digits ← Text.digitsNat? (whole ++ fraction)
  let power ← typedPower? rest
  some ⟨digits, power - fraction.length⟩

end HubLink.Decimal

namespace HubLink.Single

/-- The magnitude of the NaN that has a name. -/
def nanMagnitude : Nat :=
  Binary.Format.single.infinity + 2 ^ (Binary.Format.single.fractionBits - 1)

/-- The magnitudes that have a name; its case does not matter. -/
def named : List (String × Nat) :=
  [("nan", nanMagnitude), ("inf", Binary.Format.single.infinity),
    ("infinity", Binary.Format.single.infinity)]

/-- The magnitude that an unsigned text stands for. -/
def typedMagnitude? (text : List Char) : Option Nat :=
  match Decimal.Scaled.ofTyped? text with
  | some decimal => some (decimal.nearest Binary.Format.single)
  | none => named.lookup (String.ofList (text.map Char.toLower))

/-- The number that a text stands for. -/
def ofTyped? (text : String) : Option Single :=
  match text.toList with
  | '-' :: rest => (typedMagnitude? rest).map (ofMagnitude true)
  | chars => (typedMagnitude? (Text.dropPlus chars)).map (ofMagnitude false)

end HubLink.Single
