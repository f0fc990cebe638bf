import HubLink.Json.Numeral
import HubLink.Json.StringLiteral

/-!
# Reading a JSON value

A value is read from the front of a text within a budget of open brackets; a bracket beyond the
budget breaks the grammar, whatever is inside.  The first fault from the left is the one reported.

The three readers of this module call each other on what is left of the text.  Each call takes at
least one byte before it calls on, so twice the length of the text is fuel enough; `readValue` hides
it.
-/

namespace HubLink.Json

open Text (byte)

/-- Brackets that may be open at one time. -/
def nestingLimit : Nat := 127

/-- A number at the front of the text. -/
def readNumber : Reader Json := fun text => do
  let (numeral, rest) ← readNumeral .truncated text
  let value ← numeral.toJson
  .ok (value, rest)

/-- A value that is no array or object, the text being behind its blanks. -/
def readScalar : Reader Json
  | [] => .error .truncated
  | b :: rest =>
    if b = byte 'n' then do .ok (.null, ← expectWord (Text.ascii ['u', 'l', 'l']) rest)
    else if b = byte 't' then do .ok (.bool true, ← expectWord (Text.ascii ['r', 'u', 'e']) rest)
    else if b = byte 'f' then do
      .ok (.bool false, ← expectWord (Text.ascii ['a', 'l', 's', 'e']) rest)
    else if b = byte '-' ∨ Text.isDigit b then readNumber (b :: rest)
    else if b = byte '"' then do
      let (value, rest) ← readString rest
      .ok (.string value, rest)
    else .error .malformed

/-- An object's key with its colon. -/
def readKey (text : List UInt8) : Except Fault (String × List UInt8) := do
  let rest ← expectMark '"' text
  let (key, rest) ← readString rest
  let rest ← expectMark ':' rest
  .ok (key, rest)

/-- What comes next inside an array or object. -/
inductive Next where
  /-- Another entry, at the front of this text. -/
  | entry (text : List UInt8)
  /-- The closing bracket, and the text behind it. -/
  | closed (text : List UInt8)

/-- Finds the next entry: the first needs nothing before it, every other a comma. -/
def nextEntry (closing : Char) (first : Bool) (text : List UInt8) : Except Fault Next :=
  match skipBlanks text with
  | [] => .error .truncated
  | b :: rest =>
    if b = byte closing then .ok (.closed rest)
    else if first then .ok (.entry (b :: rest))
    else if b = byte ',' then .ok (.entry rest)
    else .error .malformed

mutual

/-- A value, with the brackets that may still be opened. -/
def valueWithin : (fuel budget : Nat) → Reader Json
  | 0, _, _ => .error .truncated
  | fuel + 1, budget, text =>
    match skipBlanks text with
    | [] => .error .truncated
    | b :: rest =>
      if b = byte '[' then
        match budget with
        | 0 => .error .malformed
        | budget + 1 => do
          let (items, rest) ← itemsWithin fuel budget true rest
          .ok (.array items, rest)
      else if b = byte '\x7b' then
        match budget with
        | 0 => .error .malformed
        | budget + 1 => do
          let (members, rest) ← membersWithin fuel budget true rest
          .ok (ofMembers members, rest)
      else readScalar (b :: rest)

/-- The items of an array up to its closing bracket. -/
def itemsWithin : (fuel budget : Nat) → (first : Bool) → Reader (List Json)
  | 0, _, _, _ => .error .truncated
  | fuel + 1, budget, first, text => do
    match ← nextEntry ']' first text with
    | .closed rest => .ok ([], rest)
    | .entry rest =>
      let (item, rest) ← valueWithin fuel budget rest
      let (items, rest) ← itemsWithin fuel budget false rest
      .ok (item :: items, rest)

/-- The members of an object up to its closing bracket, in the order of the text. -/
def membersWithin : (fuel budget : Nat) → (first : Bool) → Reader (List (String × Json))
  | 0, _, _, _ => .error .truncated
  | fuel + 1, budget, first, text => do
    match ← nextEntry '\x7d' first text with
    | .closed rest => .ok ([], rest)
    | .entry rest =>
      let (key, rest) ← readKey rest
      let (value, rest) ← valueWithin fuel budget rest
      let (members, rest) ← membersWithin fuel budget false rest
      .ok ((key, value) :: members, rest)

end

/-- A value at the front of a text, blanks before it allowed. -/
def readValue (budget : Nat) : Reader Json := fun text =>
  valueWithin (2 * text.length + 1) budget text

/-- A text that holds exactly one thing, blanks around it allowed. -/
def readAll {α : Type} (reader : Reader α) (text : List UInt8) : Except Fault α := do
  let (value, rest) ← reader text
  expectEnd rest
  .ok value

/-- The value of a JSON text. -/
def parse (text : List UInt8) : Except Fault Json :=
  readAll (readValue nestingLimit) text

end HubLink.Json
