import HubLink.Yaml.Character
import HubLink.Bytes.Hex
import HubLink.Text.Bytes

/-!
# Names, tags and directives

A node may carry an anchor, by which an alias names it, and a tag, which says what it is.  A tag is
written as a handle and a suffix; a document may say in front what a handle stands for.  A suffix may
escape bytes, so tags are kept as bytes.
-/

namespace HubLink.Yaml

/-- A tag as it is written. -/
structure WrittenTag where
  /-- The handle; empty for a tag in full. -/
  handle : List UInt8
  /-- What follows the handle. -/
  suffix : List UInt8
  deriving DecidableEq, Repr

/-- What stands in front of a document. -/
inductive Directive where
  /-- The version of YAML that the document is written in. -/
  | version (major minor : Nat)
  /-- What the tags with a handle start with. -/
  | handle (name start : List UInt8)
  deriving DecidableEq, Repr

namespace Tag

/-- The bytes of some characters. -/
def bytes (chars : List Char) : List UInt8 :=
  Text.bytes (String.ofList chars)

/-- A character that may follow the name of an anchor. -/
def endsName (text : List Placed) : Bool :=
  atSpace text || nextIs ['?', ':', ',', ']', '\x7d', '%', '@', '\x60'].contains text

/-- The name of an anchor, from behind its sign. -/
def readName? (text : List Placed) : Option (List Char × List Placed) :=
  let (name, rest) := span isNameChar text
  if name.isEmpty || !endsName rest then none else some (name, rest)

/-! ## Suffixes -/

/-- A character that a suffix may hold; in a tag in full some flow indicators too. -/
def isSuffixChar (inFull : Bool) (c : Char) : Bool :=
  isNameChar c || ";/?:@&=+$.%!~*'()".toList.contains c || (inFull && [',', '[', ']'].contains c)

/-- The byte of an escape, from behind its percent sign. -/
def readByte? : List Placed → Option (UInt8 × List Placed)
  | high :: low :: rest => do
    let high ← Hex.value? high.char
    let low ← Hex.value? low.char
    some (UInt8.ofNat (16 * high + low), rest)
  | _ => none

/-- How many bytes follow the first one of a character; `none` if it cannot be a first one. -/
def following? (b : UInt8) : Option Nat :=
  if b < 0x80 then some 0
  else if 0xc0 ≤ b ∧ b < 0xe0 then some 1
  else if 0xe0 ≤ b ∧ b < 0xf0 then some 2
  else if 0xf0 ≤ b ∧ b < 0xf8 then some 3
  else none

/-- The escaped bytes that finish a character. -/
def readFollowing? : (count : Nat) → List Placed → Option (List UInt8 × List Placed)
  | 0, text => some ([], text)
  | count + 1, text =>
    if isNext '%' text then do
      let (b, rest) ← readByte? text.tail
      if 0x80 ≤ b ∧ b < 0xc0 then
        let (more, rest) ← readFollowing? count rest
        some (b :: more, rest)
      else none
    else none

/-- The bytes of a suffix.  Each round takes a character, so the length of the text is fuel
enough. -/
def readSuffix? (inFull : Bool) : (fuel : Nat) → List Placed → Option (List UInt8 × List Placed)
  | 0, text => some ([], text)
  | _ + 1, [] => some ([], [])
  | fuel + 1, p :: rest =>
    if !isSuffixChar inFull p.char then some ([], p :: rest)
    else if p.char == '%' then do
      let (b, rest) ← readByte? rest
      let (followers, rest) ← readFollowing? (← following? b) rest
      let (more, rest) ← readSuffix? inFull fuel rest
      some (b :: followers ++ more, rest)
    else do
      let (more, rest) ← readSuffix? inFull fuel rest
      some (bytes [p.char] ++ more, rest)

/-! ## Tags -/

/-- A tag in full, from behind its opening bracket. -/
def readFull? (text : List Placed) : Option (WrittenTag × List Placed) := do
  let (suffix, rest) ← readSuffix? true text.length text
  if suffix.isEmpty || !isNext '>' rest then none else some (⟨[], suffix⟩, rest.tail)

/-- A tag with a handle, from behind its exclamation mark.  What looks like the name of a handle is
the start of the suffix unless a second mark follows; a mark alone is a tag in full. -/
def readShort? (text : List Placed) : Option (WrittenTag × List Placed) := do
  let (name, rest) := span isNameChar text
  let mark := bytes ['!']
  if isNext '!' rest then
    let (suffix, rest) ← readSuffix? false rest.length rest.tail
    if suffix.isEmpty then none else some (⟨mark ++ bytes name ++ mark, suffix⟩, rest)
  else
    let (more, rest) ← readSuffix? false rest.length rest
    let suffix := bytes name ++ more
    some (if suffix.isEmpty then ⟨[], mark⟩ else ⟨mark, suffix⟩, rest)

/-- A tag, from behind its exclamation mark. -/
def read? (inFlow : Bool) (text : List Placed) : Option (WrittenTag × List Placed) := do
  let (tag, rest) ← if isNext '<' text then readFull? text.tail else readShort? text
  if atSpace rest || (inFlow && isNext ',' rest) then some (tag, rest) else none

/-! ## Directives -/

/-- A number of at most nine digits. -/
def readNumber? (text : List Placed) : Option (Nat × List Placed) :=
  let (digits, rest) := span Char.isDigit text
  if digits.isEmpty || 9 < digits.length then none
  else some (Nat.ofDigitChars 10 digits 0, rest)

/-- The value of a version directive. -/
def readVersion? (text : List Placed) : Option (Directive × List Placed) := do
  let (major, rest) ← readNumber? text
  if !isNext '.' rest then none
  else
    let (minor, rest) ← readNumber? rest.tail
    some (.version major minor, rest)

/-- A handle: a mark, or a name between two marks. -/
def readHandle? (text : List Placed) : Option (List UInt8 × List Placed) :=
  if !isNext '!' text then none
  else
    let (name, rest) := span isNameChar text.tail
    if isNext '!' rest then some (bytes ('!' :: name ++ ['!']), rest.tail)
    else if name.isEmpty then some (bytes ['!'], rest)
    else none

/-- The value of a handle directive. -/
def readHandleStart? (text : List Placed) : Option (Directive × List Placed) := do
  let (handle, rest) ← readHandle? text
  if !nextIs isBlank rest then none
  else
    let rest := skipBlanks rest
    let (start, rest) ← readSuffix? true rest.length rest
    if start.isEmpty || !atSpace rest then none else some (.handle handle start, rest)

/-- A directive with the rest of its line, from behind its percent sign. -/
def readDirective? (text : List Placed) : Option (Directive × List Placed) := do
  let (name, rest) := span isNameChar text
  if !atSpace rest then none
  else
    let rest := skipBlanks rest
    let (directive, rest) ←
      if name == "YAML".toList then readVersion? rest
      else if name == "TAG".toList then readHandleStart? rest
      else none
    some (directive, ← finishLine? rest)

end Tag

end HubLink.Yaml
