import HubLink.Json.Scan

/-!
# Numerals

A numeral is read as it is spelled, and only then turned into a number: a whole one within 64 bits
stays exact, every other one is rounded, once, to the format that is wanted.  A numeral beyond the
greatest finite number is no number at all; one too close to zero is a zero with its sign.
-/

namespace HubLink.Json

open Text (byte)

/-- The parts of a numeral as they are spelled. -/
structure Numeral where
  /-- Whether a minus sign stands in front. -/
  negative : Bool
  /-- The digits before the point. -/
  whole : List UInt8
  /-- The digits behind the point, if there is one. -/
  fraction : Option (List UInt8)
  /-- The exponent, if there is one: whether it is negative, and its digits. -/
  exponent : Option (Bool × List UInt8)
  deriving DecidableEq, Repr

/-- A run of at least one digit.  `atEnd` is what it means that the text ends before the digit. -/
def expectDigits (atEnd : Fault) (text : List UInt8) : Except Fault (List UInt8 × List UInt8) :=
  match text.span Text.isDigit with
  | ([], []) => .error atEnd
  | ([], _ :: _) => .error .malformed
  | digits => .ok digits

/-- The digits before the point; a zero stands alone. -/
def readWhole (atEnd : Fault) : Reader (List UInt8) := fun text => do
  let (digits, rest) ← expectDigits atEnd text
  if digits.head? = some (byte '0') ∧ 1 < digits.length then .error .malformed
  else .ok (digits, rest)

/-- The digits behind the point, if there is one. -/
def readFraction (atEnd : Fault) : Reader (Option (List UInt8))
  | [] => .ok (none, [])
  | b :: rest =>
    if b = byte '.' then do
      let (digits, rest) ← expectDigits atEnd rest
      .ok (some digits, rest)
    else .ok (none, b :: rest)

/-- The sign of an exponent, plus unless there is a minus. -/
def readExponentSign : List UInt8 → Bool × List UInt8
  | [] => (false, [])
  | b :: rest =>
    if b = byte '-' then (true, rest) else if b = byte '+' then (false, rest) else (false, b :: rest)

/-- The exponent, if there is one. -/
def readExponent (atEnd : Fault) : Reader (Option (Bool × List UInt8))
  | [] => .ok (none, [])
  | b :: rest =>
    if b = byte 'e' ∨ b = byte 'E' then do
      let (negative, rest) := readExponentSign rest
      let (digits, rest) ← expectDigits atEnd rest
      .ok (some (negative, digits), rest)
    else .ok (none, b :: rest)

/-- A numeral without its sign. -/
def readUnsigned (atEnd : Fault) (negative : Bool) : Reader Numeral := fun text => do
  let (whole, rest) ← readWhole atEnd text
  let (fraction, rest) ← readFraction atEnd rest
  let (exponent, rest) ← readExponent atEnd rest
  .ok (⟨negative, whole, fraction, exponent⟩, rest)

/-- A numeral with its sign. -/
def readNumeral (atEnd : Fault) : Reader Numeral
  | [] => .error atEnd
  | b :: rest =>
    if b = byte '-' then readUnsigned atEnd true rest else readUnsigned atEnd false (b :: rest)

namespace Numeral

/-- Spelled with neither point nor exponent. -/
def isWhole (numeral : Numeral) : Bool :=
  numeral.fraction.isNone && numeral.exponent.isNone

/-- The power of ten that the exponent stands for. -/
def power (numeral : Numeral) : Int :=
  match numeral.exponent with
  | none => 0
  | some (negative, digits) =>
    let size : Int := Text.digitsValue digits
    if negative then -size else size

/-- The number that the digits, point and exponent denote. -/
def decimal (numeral : Numeral) : Decimal.Scaled :=
  let fraction := numeral.fraction.getD []
  ⟨Text.digitsValue (numeral.whole ++ fraction), numeral.power - fraction.length⟩

/-- The nearest 64-bit number, if there is a finite one. -/
def toDouble (numeral : Numeral) : Except Fault Double :=
  let number := Double.ofDecimal numeral.negative numeral.decimal
  if number.isFinite then .ok number else .error .malformed

/-- The whole number that is kept exactly, if the numeral denotes one.  A negative zero is not
whole: it keeps its sign as a binary number. -/
def whole? (numeral : Numeral) : Option Int :=
  let size := Text.digitsValue numeral.whole
  if numeral.isWhole then
    if numeral.negative then if 0 < size ∧ size ≤ Int64.size / 2 then some (-size) else none
    else if size < UInt64.size then some size else none
  else none

/-- The number that a numeral stands for. -/
def toJson (numeral : Numeral) : Except Fault Json :=
  match numeral.whole? with
  | some n => .ok (.integer n)
  | none => numeral.toDouble.map .real

/-- The nearest 32-bit number, if there is a finite one.  Of the whole numerals that fit 64 bits
only in size, a negative one is a 64-bit number first. -/
def toSingle (numeral : Numeral) : Except Fault Single :=
  let size := Text.digitsValue numeral.whole
  if numeral.isWhole ∧ numeral.negative ∧ Int64.size / 2 < size ∧ size < UInt64.size then
    numeral.toDouble.map Double.narrow
  else
    let number := Single.ofDecimal numeral.negative numeral.decimal
    if number.isFinite then .ok number else .error .malformed

end Numeral

end HubLink.Json
