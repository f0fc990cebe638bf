/-!
# Text in ASCII

Formats of the link are written in ASCII.  These are the byte of an ASCII character, the bytes of a
run of them, and the classes of bytes that several formats share.
-/

namespace HubLink.Text

/-- The byte of an ASCII character. -/
def byte (c : Char) : UInt8 :=
  UInt8.ofNat c.toNat

/-- The bytes of a run of ASCII characters. -/
def ascii (chars : List Char) : List UInt8 :=
  chars.map byte

/-- A decimal digit. -/
def isDigit (b : UInt8) : Bool :=
  48 ≤ b && b ≤ 57

/-- The decimal digits of a number, as bytes. -/
def decimal (n : Nat) : List UInt8 :=
  ascii (Nat.toDigits 10 n)

/-- An integer with a minus sign where one is due, as bytes. -/
def decimalInt (n : Int) : List UInt8 :=
  if n < 0 then byte '-' :: decimal n.natAbs else decimal n.natAbs

/-- The number that a run of decimal digits stands for. -/
def digitsValue (digits : List UInt8) : Nat :=
  digits.foldl (fun n d => 10 * n + (d.toNat - 48)) 0

end HubLink.Text
