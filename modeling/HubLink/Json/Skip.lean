import HubLink.Json.Reader

/-!
# Passing over a JSON value

A member that nobody asked for is passed over: its grammar is checked, its meaning is not.  Numbers
may be of any size, string literals may hold anything between well spelled escapes, and brackets may
nest to any depth, for which the open ones are kept in a list.
-/

namespace HubLink.Json

open Text (byte)

/-- An open bracket. -/
inductive Bracket where
  | square
  | curly
  deriving DecidableEq, Repr

/-- The mark that closes a bracket. -/
def Bracket.closing : Bracket → Char
  | .square => ']'
  | .curly => '\x7d'

/-- Where the passing over stands. -/
inductive Place where
  /-- Before a value. -/
  | value
  /-- Inside the innermost bracket, before an entry or the closing mark; `first` directly behind the
  opening mark. -/
  | entry (first : Bool)
  deriving DecidableEq, Repr

/-- The text behind a value that is no array or object, the text being behind its blanks. -/
def skipScalar : List UInt8 → Except Fault (List UInt8)
  | [] => .error .truncated
  | b :: rest =>
    if b = byte '-' ∨ Text.isDigit b then (readNumeral .malformed (b :: rest)).map Prod.snd
    else if b = byte '"' then skipString rest
    else (readScalar (b :: rest)).map Prod.snd

/-- The text behind an object's key and its colon. -/
def skipKey (text : List UInt8) : Except Fault (List UInt8) := do
  let rest ← expectMark '"' text
  let rest ← skipString rest
  expectMark ':' rest

/-- Passes over what is left of a value with the given brackets open.  Every second step takes a
byte, so twice the length of the text is fuel enough. -/
def skipFrom : (fuel : Nat) → List Bracket → Place → List UInt8 → Except Fault (List UInt8)
  | 0, _, _, _ => .error .truncated
  | fuel + 1, enclosing, .value, text =>
    match skipBlanks text with
    | [] => .error .truncated
    | b :: rest =>
      if b = byte '[' then skipFrom fuel (.square :: enclosing) (.entry true) rest
      else if b = byte '\x7b' then skipFrom fuel (.curly :: enclosing) (.entry true) rest
      else do
        let rest ← skipScalar (b :: rest)
        skipFrom fuel enclosing (.entry false) rest
  | _ + 1, [], .entry _, text => .ok text
  | fuel + 1, bracket :: enclosing, .entry first, text => do
    match ← nextEntry bracket.closing first text with
    | .closed rest => skipFrom fuel enclosing (.entry false) rest
    | .entry rest =>
      match bracket with
      | .square => skipFrom fuel (.square :: enclosing) .value rest
      | .curly =>
        let rest ← skipKey rest
        skipFrom fuel (.curly :: enclosing) .value rest

/-- The text behind a value, blanks before it allowed. -/
def skipValue (text : List UInt8) : Except Fault (List UInt8) :=
  skipFrom (2 * text.length + 2) [] .value text

end HubLink.Json
