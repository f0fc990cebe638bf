import HubLink.Json.Shape
import HubLink.Json.Skip

/-!
# Records read straight from the text

Some records are read from the text without building a value first.  Their fields are then met in
the order of the text, and the first problem from the left is the one reported: a field of the wrong
type hides everything behind it, a field that stands twice is reported at its second name, and
members with unknown names are passed over.

What has been read so far is a value of some type `σ`; a field says whether it is filled there and
how to fill it.
-/

namespace HubLink.Json

open Text (byte)

/-- A value of the wrong type at the front of the text, which is behind its blanks.  Arrays and
objects are reported without looking inside. -/
def wrongType {α : Type} (expected : String) (text : List UInt8) : Except Fault α :=
  match text with
  | [] => .error .truncated
  | b :: _ =>
    if b = byte '[' then .error (.mismatch (.wrongType .sequence expected))
    else if b = byte '\x7b' then .error (.mismatch (.wrongType .map expected))
    else do
      let (value, _) ← readScalar text
      .error (.mismatch (.wrongType value.found expected))

/-- Reads a text. -/
def readText : Reader String := fun text =>
  match skipBlanks text with
  | [] => .error .truncated
  | b :: rest => if b = byte '"' then readString rest else wrongType "a string" (b :: rest)

/-- Reads a numeral where a number called `name` is expected. -/
def readNumeralAs (name : String) : Reader Numeral := fun text =>
  match skipBlanks text with
  | [] => .error .truncated
  | b :: rest =>
    if b = byte '-' ∨ Text.isDigit b then readNumeral .truncated (b :: rest)
    else wrongType name (b :: rest)

/-- Reads a whole number of the given shape. -/
def readWholeAs {α : Type} (name : String) (shape : Shape α) : Reader α := fun text => do
  let (numeral, rest) ← readNumeralAs name text
  let value ← numeral.toJson
  match shape value with
  | .ok value => .ok (value, rest)
  | .error cause => .error (.mismatch cause)

/-- Reads a number, rounded once to 32 bits. -/
def readSingle : Reader Single := fun text => do
  let (numeral, rest) ← readNumeralAs "f32" text
  let value ← numeral.toSingle
  .ok (value, rest)

/-- Reads a value that may be null. -/
def readOptional {α : Type} (reader : Reader α) : Reader (Option α) := fun text =>
  match skipBlanks text with
  | [] => .error .truncated
  | b :: rest =>
    if b = byte 'n' then do .ok (none, ← expectWord (Text.ascii ['u', 'l', 'l']) rest)
    else do
      let (value, rest) ← reader (b :: rest)
      .ok (some value, rest)

/-- A field of a record that is read from text into a state of type `σ`. -/
structure TextField (σ : Type) where
  /-- The name of the member. -/
  name : String
  /-- Whether the member may be absent. -/
  optional : Bool
  /-- Whether the state holds the field already. -/
  filled : σ → Bool
  /-- Reads the value into the state, with the brackets that may still be opened. -/
  read : (budget : Nat) → σ → Reader σ

namespace TextRecord

variable {σ : Type}

/-- The value of a field that must be there. -/
def need {α : Type} (name : String) : Option α → Except Fault α
  | some value => .ok value
  | none => .error (.mismatch (.missingField name))

/-- The members of an object, up to its closing bracket.  Every member takes a byte, so the length
of the text is fuel enough. -/
def readMembers (fields : List (TextField σ)) (budget : Nat) :
    (fuel : Nat) → (first : Bool) → σ → Reader σ
  | 0, _, _, _ => .error .truncated
  | fuel + 1, first, state, text => do
    match ← nextEntry '\x7d' first text with
    | .closed rest => .ok (state, rest)
    | .entry rest =>
      let rest ← expectMark '"' rest
      let (key, rest) ← readString rest
      match fields.find? (·.name == key) with
      | none =>
        let rest ← expectMark ':' rest
        let rest ← skipValue rest
        readMembers fields budget fuel false state rest
      | some field =>
        if field.filled state then .error (.mismatch (.duplicateField key))
        else
          let rest ← expectMark ':' rest
          let (state, rest) ← field.read budget state rest
          readMembers fields budget fuel false state rest

/-- The items of an array, field by field, up to and with its closing bracket.  `position` counts
the fields before, of `size` in all. -/
def readItems (name : String) (size budget : Nat) :
    List (TextField σ) → (position : Nat) → σ → Reader σ
  | [], _, state, text => do
    let rest ← expectMark ']' text
    .ok (state, rest)
  | field :: fields, position, state, text => do
    match ← nextEntry ']' (position == 0) text with
    | .entry rest =>
      let (state, rest) ← field.read budget state rest
      readItems name size budget fields (position + 1) state rest
    | .closed rest =>
      match (field :: fields).findIdx? fun field => !field.optional with
      | some ahead => .error (.mismatch (.tooShort (position + ahead) name size))
      | none => .ok (state, rest)

/-- Reads a record called `name`, as an object or as an array of its fields in order. -/
def read (name : String) (fields : List (TextField σ)) (start : σ) (budget : Nat) : Reader σ :=
  fun text =>
    match skipBlanks text with
    | [] => .error .truncated
    | b :: rest =>
      if b = byte '\x7b' then
        match budget with
        | 0 => .error .malformed
        | budget + 1 => readMembers fields budget (rest.length + 1) true start rest
      else if b = byte '[' then
        match budget with
        | 0 => .error .malformed
        | budget + 1 => readItems name fields.length budget fields 0 start rest
      else wrongType ("struct " ++ name) (b :: rest)

end TextRecord

/-- The name of a value that is one of a few names: a text, or an object that holds null under that
name alone.  `accept` turns the name into the value, or says why it cannot. -/
def readName {α : Type} (accept : String → Except Mismatch α) (budget : Nat) : Reader α :=
  fun text =>
    match skipBlanks text with
    | [] => .error .truncated
    | b :: rest =>
      if b = byte '"' then do
        let (name, rest) ← readString rest
        match accept name with
        | .ok value => .ok (value, rest)
        | .error cause => .error (.mismatch cause)
      else if b = byte '\x7b' then
        match budget with
        | 0 => .error .malformed
        | _ + 1 => do
          let (name, rest) ← readVariant rest
          match accept name with
          | .error cause => .error (.mismatch cause)
          | .ok value =>
            let rest ← expectMark ':' rest
            let rest ← readUnit rest
            let rest ← expectMark '\x7d' rest
            .ok (value, rest)
      else .error .malformed
where
  /-- The key that names the variant. -/
  readVariant : Reader String := fun text =>
    match skipBlanks text with
    | [] => .error .truncated
    | b :: rest =>
      if b = byte '"' then readString rest else wrongType "variant identifier" (b :: rest)
  /-- The null under the name. -/
  readUnit (text : List UInt8) : Except Fault (List UInt8) :=
    match skipBlanks text with
    | [] => .error .truncated
    | b :: rest =>
      if b = byte 'n' then expectWord (Text.ascii ['u', 'l', 'l']) rest
      else wrongType "unit" (b :: rest)

/-- The value of a name that stands under `names` in `known`. -/
def oneOf {α : Type} (known : List (String × α)) (name : String) : Except Mismatch α :=
  match List.lookup name known with
  | some value => .ok value
  | none => .error (.unknownName name (known.map Prod.fst))

end HubLink.Json
