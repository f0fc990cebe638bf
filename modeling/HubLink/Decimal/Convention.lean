import HubLink.Decimal.Shortest

/-!
# Decimal notation

A number is written positionally while its leading digit is near the point, and with an exponent
otherwise.  A positional number always has a digit on either side of the point, so that it is never
mistaken for a whole number; an exponent always has its sign.
-/

namespace HubLink.Decimal

/-- Which numbers are written positionally: those whose leading digit stands at a place from `least`
to `most`, the place before the point being zero. -/
structure Convention where
  /-- The least place of a leading digit. -/
  least : Int
  /-- The greatest place of a leading digit. -/
  most : Int
  deriving DecidableEq, Repr

/-- An integer with its sign, a plus included. -/
def signed (n : Int) : List Char :=
  (if n < 0 then '-' else '+') :: Nat.toDigits 10 n.natAbs

/-- Digits with the point behind the place `place`, padded with zeros on either side. -/
def positional (digits : List Char) (place : Int) : List Char :=
  match place with
  | .negSucc zeros => '0' :: '.' :: List.replicate zeros '0' ++ digits
  | .ofNat before =>
    let whole := digits.take (before + 1)
    let padding := List.replicate (before + 1 - digits.length) '0'
    let fraction := digits.drop (before + 1)
    whole ++ padding ++ '.' :: (if fraction.isEmpty then ['0'] else fraction)

/-- One digit, the others behind the point if there are any, and the exponent. -/
def scientific (digits : List Char) (place : Int) : List Char :=
  let fraction := digits.drop 1
  digits.take 1 ++ (if fraction.isEmpty then [] else '.' :: fraction) ++ 'e' :: signed place

/-- The text of a decimal above zero. -/
def Convention.write (convention : Convention) (decimal : Scaled) : List Char :=
  let digits := Nat.toDigits 10 decimal.digits
  let place := decimal.exponent + (digits.length - 1 : Nat)
  if convention.least ≤ place ∧ place ≤ convention.most then positional digits place
  else scientific digits place

end HubLink.Decimal
