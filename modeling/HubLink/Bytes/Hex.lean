/-!
# Hexadecimal text

Frames and advertisements are shown to people as lower-case hexadecimal, two digits a byte; reading
takes digits of either case and refuses everything else, a lone last digit included.
-/

namespace HubLink.Hex

/-- The lower-case digit of a number below sixteen. -/
def digit (n : Nat) : Char :=
  if n < 10 then Char.ofNat (48 + n) else Char.ofNat (87 + n)

/-- The value of a hexadecimal digit of either case. -/
def value? (c : Char) : Option Nat :=
  if '0' ≤ c ∧ c ≤ '9' then some (c.toNat - 48)
  else if 'a' ≤ c ∧ c ≤ 'f' then some (c.toNat - 87)
  else if 'A' ≤ c ∧ c ≤ 'F' then some (c.toNat - 55)
  else none

/-- The two digits of a byte, high half first. -/
def digits (byte : UInt8) : List Char :=
  [digit (byte.toNat / 16), digit (byte.toNat % 16)]

/-- The hexadecimal form of some bytes. -/
def encode (content : List UInt8) : String :=
  String.ofList (content.flatMap digits)

/-- Reads pairs of digits. -/
def decodeChars? : List Char → Option (List UInt8)
  | [] => some []
  | high :: low :: rest =>
    match value? high, value? low with
    | some h, some l => (decodeChars? rest).map (UInt8.ofNat (16 * h + l) :: ·)
    | _, _ => none
  | [_] => none

/-- The bytes that a hexadecimal text stands for. -/
def decode? (text : String) : Option (List UInt8) :=
  decodeChars? text.toList

/-- The lowest `width` hexadecimal digits of a number, zeros included. -/
def padded : (width : Nat) → Nat → List Char
  | 0, _ => []
  | width + 1, n => padded width (n / 16) ++ [digit (n % 16)]

/-- A 32-bit word as `0x` and eight digits. -/
def word32 (word : UInt32) : String :=
  "0x" ++ String.ofList (padded 8 word.toNat)

end HubLink.Hex
