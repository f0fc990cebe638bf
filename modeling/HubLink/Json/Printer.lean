import HubLink.Json.Value
import HubLink.Text.Bytes

/-!
# Writing a JSON value

A value has one compact form, without blanks, which is what crosses the link, and one indented form
for people.  A string literal escapes the quote, the backslash and the controls; all else stands as
it is.
-/

namespace HubLink.Json

open Text (byte ascii)

/-- The letter of the short escape of a control. -/
def shortLetter? (b : UInt8) : Option Char :=
  if b = 8 then some 'b'
  else if b = 9 then some 't'
  else if b = 10 then some 'n'
  else if b = 12 then some 'f'
  else if b = 13 then some 'r'
  else none

/-- A lower-case hexadecimal digit. -/
def hexDigit (n : Nat) : UInt8 :=
  if n < 10 then UInt8.ofNat (48 + n) else UInt8.ofNat (87 + n)

/-- A byte as it stands inside a string literal. -/
def escapedByte (b : UInt8) : List UInt8 :=
  if b = byte '"' ∨ b = byte '\\' then [byte '\\', b]
  else if b < 32 then
    match shortLetter? b with
    | some letter => [byte '\\', byte letter]
    | none =>
      ascii ['\\', 'u', '0', '0'] ++ [hexDigit (b.toNat / 16), hexDigit (b.toNat % 16)]
  else [b]

/-- A string literal. -/
def literal (value : String) : List UInt8 :=
  byte '"' :: (Text.bytes value).flatMap escapedByte ++ [byte '"']

/-- An object with the given members, each with the text of its value. -/
def printFields (members : List (String × List UInt8)) : List UInt8 :=
  byte '\x7b' ::
    [byte ','].intercalate (members.map fun (key, value) => literal key ++ byte ':' :: value) ++
      [byte '\x7d']

/-- The text of a 64-bit number; one that is not finite has none and is written as null. -/
def numberText (number : Double) : List UInt8 :=
  if number.isFinite then ascii number.text else ascii ['n', 'u', 'l', 'l']

/-- The text of a value that is no array or object. -/
def scalarText : Json → List UInt8
  | .bool true => ascii ['t', 'r', 'u', 'e']
  | .bool false => ascii ['f', 'a', 'l', 's', 'e']
  | .integer n => Text.decimalInt n
  | .real number => numberText number
  | .string value => literal value
  | _ => ascii ['n', 'u', 'l', 'l']

mutual

/-- The compact form of a value. -/
def print : Json → List UInt8
  | .array items => byte '[' :: printItems true items ++ [byte ']']
  | .object members => byte '\x7b' :: printMembers true members ++ [byte '\x7d']
  | scalar => scalarText scalar

/-- Items with a comma before each but the first. -/
def printItems (first : Bool) : List Json → List UInt8
  | [] => []
  | item :: rest => (if first then [] else [byte ',']) ++ print item ++ printItems false rest

/-- Members with a comma before each but the first. -/
def printMembers (first : Bool) : List (String × Json) → List UInt8
  | [] => []
  | (key, value) :: rest =>
    (if first then [] else [byte ',']) ++ literal key ++ byte ':' :: print value ++
      printMembers false rest

end

/-- A new line at the given depth of indentation. -/
def newLine (depth : Nat) : List UInt8 :=
  byte '\n' :: List.replicate (2 * depth) (byte ' ')

mutual

/-- The indented form of a value whose brackets stand at the given depth. -/
def printIndented (depth : Nat) : Json → List UInt8
  | .array [] => ascii ['[', ']']
  | .array items =>
    byte '[' :: printIndentedItems (depth + 1) true items ++ newLine depth ++ [byte ']']
  | .object [] => ascii ['\x7b', '\x7d']
  | .object members =>
    byte '\x7b' :: printIndentedMembers (depth + 1) true members ++ newLine depth ++
      [byte '\x7d']
  | scalar => scalarText scalar

/-- Items on lines of their own. -/
def printIndentedItems (depth : Nat) (first : Bool) : List Json → List UInt8
  | [] => []
  | item :: rest =>
    (if first then [] else [byte ',']) ++ newLine depth ++ printIndented depth item ++
      printIndentedItems depth false rest

/-- Members on lines of their own. -/
def printIndentedMembers (depth : Nat) (first : Bool) : List (String × Json) → List UInt8
  | [] => []
  | (key, value) :: rest =>
    (if first then [] else [byte ',']) ++ newLine depth ++ literal key ++ ascii [':', ' '] ++
      printIndented depth value ++ printIndentedMembers depth false rest

end

end HubLink.Json
