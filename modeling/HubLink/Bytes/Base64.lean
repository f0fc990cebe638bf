import HubLink.Text.Ascii
import HubLink.Text.Bytes

/-!
# Base64

Log bytes travel inside JSON as base64 text in the standard alphabet.  The text is canonical: the
padding must be there, and the bits that no byte uses must be zero, so no two texts stand for the
same bytes.

The reader goes from left to right in groups of four.  Only the last group may be padded; a padding
sign anywhere else is a foreign symbol.
-/

namespace HubLink.Base64

open Text (byte)

/-- What is wrong with a base64 text. -/
inductive Fault where
  /-- A byte that is no symbol, or padding where none may stand. -/
  | symbol (byte : UInt8) (offset : Nat)
  /-- Too few symbols for a byte; the number of symbols in all. -/
  | length (symbols : Nat)
  /-- A last symbol with bits that no byte uses. -/
  | lastSymbol (byte : UInt8) (offset : Nat)
  /-- Padding that is missing or incomplete. -/
  | padding
  deriving DecidableEq, Repr

/-- The wording of a fault. -/
def Fault.message : Fault → String
  | .symbol byte offset => s!"Invalid symbol {byte.toNat}, offset {offset}."
  | .length symbols => s!"Invalid input length: {symbols}"
  | .lastSymbol byte offset => s!"Invalid last symbol {byte.toNat}, offset {offset}."
  | .padding => "Invalid padding"

/-- The padding sign. -/
def pad : UInt8 := byte '='

/-- The symbol of a number below 64: capitals, small letters, digits, plus, slash. -/
def symbol (n : Nat) : UInt8 :=
  if n < 26 then UInt8.ofNat (65 + n)
  else if n < 52 then UInt8.ofNat (71 + n)
  else if n < 62 then UInt8.ofNat (n - 4)
  else if n = 62 then byte '+'
  else byte '/'

/-- The number that a symbol stands for. -/
def value? (b : UInt8) : Option Nat :=
  if 65 ≤ b ∧ b ≤ 90 then some (b.toNat - 65)
  else if 97 ≤ b ∧ b ≤ 122 then some (b.toNat - 71)
  else if 48 ≤ b ∧ b ≤ 57 then some (b.toNat + 4)
  else if b = byte '+' then some 62
  else if b = byte '/' then some 63
  else none

/-- The base64 form of some bytes. -/
def encode : List UInt8 → List UInt8
  | a :: b :: c :: rest =>
    [symbol (a.toNat / 4), symbol (a.toNat % 4 * 16 + b.toNat / 16),
      symbol (b.toNat % 16 * 4 + c.toNat / 64), symbol (c.toNat % 64)] ++ encode rest
  | [a, b] =>
    [symbol (a.toNat / 4), symbol (a.toNat % 4 * 16 + b.toNat / 16), symbol (b.toNat % 16 * 4),
      pad]
  | [a] => [symbol (a.toNat / 4), symbol (a.toNat % 4 * 16), pad, pad]
  | [] => []

/-- The three bytes of four symbols. -/
def bytes3 (a b c d : Nat) : List UInt8 :=
  [UInt8.ofNat (a * 4 + b / 16), UInt8.ofNat (b % 16 * 16 + c / 4), UInt8.ofNat (c % 4 * 64 + d)]

/-- The number of the symbol at an offset. -/
def expectSymbol (b : UInt8) (offset : Nat) : Except Fault Nat :=
  match value? b with
  | some n => .ok n
  | none => .error (.symbol b offset)

/-- The symbols of the last group and the number of its padding signs.  `position` counts the bytes
of the group before. -/
def readLast (offset position : Nat) : List UInt8 → Except Fault (List Nat × Nat)
  | [] => .ok ([], 0)
  | b :: rest =>
    if b = pad then
      if position < 2 ∨ rest.any (· != pad) then .error (.symbol b (offset + position))
      else .ok ([], rest.length + 1)
    else do
      let n ← expectSymbol b (offset + position)
      let (symbols, padding) ← readLast offset (position + 1) rest
      .ok (n :: symbols, padding)

/-- The bytes of the last group, which starts at `offset` and has at most four bytes. -/
def decodeLast (offset : Nat) (group : List UInt8) : Except Fault (List UInt8) := do
  let (symbols, padding) ← readLast offset 0 group
  let last := group.getD (symbols.length - 1) 0
  let lastOffset := offset + symbols.length - 1
  if group.isEmpty then .ok []
  else if symbols.length < 2 then .error (.length (offset + symbols.length))
  else if symbols.length + padding ≠ 4 then .error .padding
  else
    match symbols with
    | [a, b] =>
      if b % 16 = 0 then .ok ((bytes3 a b 0 0).take 1) else .error (.lastSymbol last lastOffset)
    | [a, b, c] =>
      if c % 4 = 0 then .ok ((bytes3 a b c 0).take 2) else .error (.lastSymbol last lastOffset)
    | [a, b, c, d] => .ok (bytes3 a b c d)
    | _ => .ok []

/-- The bytes of the groups from `offset` on. -/
def decodeFrom (offset : Nat) : List UInt8 → Except Fault (List UInt8)
  | a :: b :: c :: d :: e :: rest => do
    let a ← expectSymbol a offset
    let b ← expectSymbol b (offset + 1)
    let c ← expectSymbol c (offset + 2)
    let d ← expectSymbol d (offset + 3)
    let more ← decodeFrom (offset + 4) (e :: rest)
    .ok (bytes3 a b c d ++ more)
  | group => decodeLast offset group

/-- A foreign byte that stands alone in the last group, which is reported before all else. -/
def strayLast? (text : List UInt8) : Option Fault :=
  match text.getLast? with
  | some b =>
    if text.length % 4 = 1 ∧ b ≠ pad ∧ (value? b).isNone then some (.symbol b (text.length - 1))
    else none
  | none => none

/-- The bytes that a base64 text stands for. -/
def decode (text : List UInt8) : Except Fault (List UInt8) :=
  match strayLast? text with
  | some fault => .error fault
  | none => decodeFrom 0 text

end HubLink.Base64
