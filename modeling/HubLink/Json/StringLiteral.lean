import HubLink.Json.Scan
import HubLink.Bytes.Hex

/-!
# String literals

A string literal is read element by element, an element being a byte or an escape.  A literal that
is kept must denote text: its surrogate escapes come in pairs and its bytes are UTF-8.  A literal
that is only passed over need not, so its escapes are checked for their spelling alone.
-/

namespace HubLink.Json

open Text (byte)

/-- The bytes that a character takes. -/
def encodeChar (code : Nat) : List UInt8 :=
  String.utf8EncodeChar (Char.ofNat code)

/-- The character that a one-letter escape stands for. -/
def shortEscape? (b : UInt8) : Option UInt8 :=
  if b = byte '"' ∨ b = byte '\\' ∨ b = byte '/' then some b
  else if b = byte 'b' then some 8
  else if b = byte 'f' then some 12
  else if b = byte 'n' then some 10
  else if b = byte 'r' then some 13
  else if b = byte 't' then some 9
  else none

/-- The value of one hexadecimal digit. -/
def hexValue? (b : UInt8) : Option Nat :=
  Hex.value? (Char.ofNat b.toNat)

/-- Four hexadecimal digits. -/
def readHex4 : Reader Nat
  | b₀ :: b₁ :: b₂ :: b₃ :: rest =>
    match hexValue? b₀, hexValue? b₁, hexValue? b₂, hexValue? b₃ with
    | some h₀, some h₁, some h₂, some h₃ => .ok (4096 * h₀ + 256 * h₁ + 16 * h₂ + h₃, rest)
    | _, _, _, _ => .error .malformed
  | _ => .error .truncated

/-- The first half of a surrogate pair. -/
def isLeading (code : Nat) : Bool :=
  0xD800 ≤ code && code ≤ 0xDBFF

/-- The second half of a surrogate pair. -/
def isTrailing (code : Nat) : Bool :=
  0xDC00 ≤ code && code ≤ 0xDFFF

/-- The second half of a surrogate pair, as an escape of its own, behind the first half. -/
def readTrailing (leading : Nat) : Reader (List UInt8)
  | [] => .error .truncated
  | b :: rest =>
    if b = byte '\\' then
      match rest with
      | [] => .error .truncated
      | u :: rest =>
        if u = byte 'u' then do
          let (trailing, rest) ← readHex4 rest
          if isTrailing trailing then
            .ok (encodeChar (0x10000 + 1024 * (leading - 0xD800) + (trailing - 0xDC00)), rest)
          else .error .malformed
        else .error .malformed
    else .error .malformed

/-- What follows the `u` of an escape. -/
def readCodeUnit (kept : Bool) : Reader (List UInt8) := fun text => do
  let (code, rest) ← readHex4 text
  if !kept then .ok ([], rest)
  else if isTrailing code then .error .malformed
  else if isLeading code then readTrailing code rest
  else .ok (encodeChar code, rest)

/-- What follows the backslash of an escape. -/
def readEscape (kept : Bool) : Reader (List UInt8)
  | [] => .error .truncated
  | b :: rest =>
    if b = byte 'u' then readCodeUnit kept rest
    else
      match shortEscape? b with
      | some content => .ok ([content], rest)
      | none => .error .malformed

/-- The next element of a literal, or `none` at its closing quote. -/
def readElement (kept : Bool) : Reader (Option (List UInt8))
  | [] => .error .truncated
  | b :: rest =>
    if b = byte '"' then .ok (none, rest)
    else if b = byte '\\' then do
      let (content, rest) ← readEscape kept rest
      .ok (some content, rest)
    else if b < 32 then .error .malformed
    else .ok (some [b], rest)

/-- The elements up to the closing quote.  Every element takes a byte, so the length of the text is
fuel enough. -/
def readElements (kept : Bool) : (fuel : Nat) → Reader (List UInt8)
  | 0, _ => .error .truncated
  | fuel + 1, text => do
    let (element, rest) ← readElement kept text
    match element with
    | none => .ok ([], rest)
    | some content =>
      let (more, rest) ← readElements kept fuel rest
      .ok (content ++ more, rest)

/-- A kept literal, behind its opening quote. -/
def readString : Reader String := fun text => do
  let (content, rest) ← readElements true (text.length + 1) text
  match Text.ofBytes? content with
  | some value => .ok (value, rest)
  | none => .error .malformed

/-- The text behind a literal that is passed over. -/
def skipString (text : List UInt8) : Except Fault (List UInt8) :=
  (readElements false (text.length + 1) text).map Prod.snd

end HubLink.Json
