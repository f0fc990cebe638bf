import HubLink.Bytes.Hex

/-!
# Whole numbers typed by people

Settings and arguments hold whole numbers as plain decimal digits.  A plus sign may stand in front,
and a minus where the type has negative numbers; leading zeros do not matter; blanks, other digits
than the ten of ASCII and numbers out of range are refused.
-/

namespace HubLink.Text

/-- The number that a non-empty run of decimal digits stands for. -/
def digitsNat? (digits : List Char) : Option Nat :=
  if !digits.isEmpty && digits.all Char.isDigit then some (Nat.ofDigitChars 10 digits 0) else none

/-- The number that a non-empty run of digits stands for in a base up to sixteen. -/
def digitsIn? (base : Nat) (digits : List Char) : Option Nat := do
  let values ← digits.mapM fun c => (Hex.value? c).filter (· < base)
  if values.isEmpty then none else some (values.foldl (fun n digit => base * n + digit) 0)

/-- A text behind its plus sign, if it has one. -/
def dropPlus : List Char → List Char
  | '+' :: rest => rest
  | chars => chars

/-- The number below `bound` that a text stands for. -/
def natBelow? (bound : Nat) (text : String) : Option Nat :=
  (digitsNat? (dropPlus text.toList)).filter (· < bound)

/-- The number from `-half` to `half - 1` that a text stands for. -/
def intWithin? (half : Nat) (text : String) : Option Int :=
  match text.toList with
  | '-' :: digits => ((digitsNat? digits).filter (· ≤ half)).map fun n => -(n : Int)
  | chars => ((digitsNat? (dropPlus chars)).filter (· < half)).map Int.ofNat

end HubLink.Text
