import HubLink.Json.Fault

/-!
# Shapes of values

A shape says what a value must be to count as a text, a number of some width, a list or a record.
A record is read member by member: first every member whose name is known must have the shape of its
field, in the order in which the members stand, then every required field must be there, in the
order of the record.  Members with other names do not matter, so records can grow.

A record may also stand as an array of its fields in order, from which optional fields at the end
may be left out.
-/

namespace HubLink.Json

/-- A shape reads a value or says why it does not fit. -/
abbrev Shape (α : Type) :=
  Json → Except Mismatch α

namespace Shape

/-- Any value. -/
def any : Shape Json :=
  .ok

/-- A text. -/
def string : Shape String
  | .string value => .ok value
  | other => .error (.wrongType other.found "a string")

/-- A truth value. -/
def bool : Shape Bool
  | .bool value => .ok value
  | other => .error (.wrongType other.found "a boolean")

/-- A whole number of some integer type: `convert?` gives its value, where the type has it. -/
def integer {α : Type} (name : String) (convert? : Int → Option α) : Shape α
  | .integer n =>
    match convert? n with
    | some value => .ok value
    | none => .error (.outOfRange n name)
  | other => .error (.wrongType other.found name)

/-- An unsigned integer below `bound`, as a number of the type that `make` builds. -/
def below {α : Type} (bound : Nat) (make : Nat → α) (n : Int) : Option α :=
  if 0 ≤ n ∧ n < bound then some (make n.toNat) else none

/-- A signed integer of magnitude at most `half`, as a number of the type that `make` builds. -/
def within {α : Type} (half : Nat) (make : Int → α) (n : Int) : Option α :=
  if -(half : Int) ≤ n ∧ n < half then some (make n) else none

/-- An unsigned integer of eight bits. -/
def u8 : Shape UInt8 :=
  integer "u8" (below 256 UInt8.ofNat)

/-- An unsigned integer of sixteen bits. -/
def u16 : Shape UInt16 :=
  integer "u16" (below 65536 UInt16.ofNat)

/-- An unsigned integer of 32 bits. -/
def u32 : Shape UInt32 :=
  integer "u32" (below UInt32.size UInt32.ofNat)

/-- An unsigned integer of 64 bits. -/
def u64 : Shape UInt64 :=
  integer "u64" (below UInt64.size UInt64.ofNat)

/-- A size: any whole number that is not negative. -/
def size : Shape Nat :=
  integer "usize" (below UInt64.size id)

/-- A signed integer of sixteen bits. -/
def i16 : Shape Int16 :=
  integer "i16" (within (Int16.size / 2) Int16.ofInt)

/-- A signed integer of 64 bits. -/
def i64 : Shape Int64 :=
  integer "i64" (within (Int64.size / 2) Int64.ofInt)

/-- The 64-bit number nearest to a whole number. -/
def wholeDouble (n : Int) : Double :=
  .ofDecimal (n < 0) ⟨n.natAbs, 0⟩

/-- The 32-bit number nearest to a whole number. -/
def wholeSingle (n : Int) : Single :=
  .ofDecimal (n < 0) ⟨n.natAbs, 0⟩

/-- A 64-bit number. -/
def double : Shape Double
  | .integer n => .ok (wholeDouble n)
  | .real number => .ok number
  | other => .error (.wrongType other.found "f64")

/-- A 32-bit number; a long number is rounded, to infinity if it is out of range. -/
def single : Shape Single
  | .integer n => .ok (wholeSingle n)
  | .real number => .ok number.narrow
  | other => .error (.wrongType other.found "f32")

/-- An array of values of one shape. -/
def list {α : Type} (shape : Shape α) : Shape (List α)
  | .array items => items.mapM shape
  | other => .error (.wrongType other.found "a sequence")

/-- A value that may be null. -/
def option {α : Type} (shape : Shape α) : Shape (Option α)
  | .null => .ok none
  | other => (shape other).map some

end Shape

/-- What a record asks of one of its fields. -/
structure FieldRule where
  /-- The name of the member. -/
  name : String
  /-- Whether the member may be absent. -/
  optional : Bool
  /-- What a value must satisfy to stand in the field. -/
  check : Json → Except Mismatch Unit

/-- A record with values of type `α`: the rules of its fields in order, and how the values found
under their names make up the record. -/
structure Record (α : Type) where
  /-- The fields in order. -/
  rules : List FieldRule
  /-- Builds the record from the value found under each name. -/
  build : (String → Option Json) → Except Mismatch α

namespace Record

/-- The record without fields. -/
def unit {α : Type} (value : α) : Record α :=
  ⟨[], fun _ => .ok value⟩

/-- Adds a field that must be there. -/
def required {α β : Type} (record : Record (α → β)) (name : String) (shape : Shape α) :
    Record β where
  rules := record.rules ++ [⟨name, false, fun value => (shape value).map fun _ => ()⟩]
  build find := do
    let make ← record.build find
    match find name with
    | none => .error (.missingField name)
    | some value => (shape value).map make

/-- Adds a field that may be absent or null. -/
def optional {α β : Type} (record : Record (Option α → β)) (name : String) (shape : Shape α) :
    Record β where
  rules := record.rules ++ [⟨name, true, fun value => (Shape.option shape value).map fun _ => ()⟩]
  build find := do
    let make ← record.build find
    match find name with
    | none => .ok (make none)
    | some value => (Shape.option shape value).map make

/-- Checks each member whose name a rule knows, in the order in which the members stand. -/
def checkMembers (rules : List FieldRule) : List (String × Json) → Except Mismatch Unit
  | [] => .ok ()
  | (key, value) :: rest => do
    match rules.find? (·.name == key) with
    | none => .ok ()
    | some rule => rule.check value
    checkMembers rules rest

/-- Checks each item against the rule at its place. -/
def checkItems : List FieldRule → List Json → Except Mismatch Unit
  | rule :: rules, item :: items => do
    rule.check item
    checkItems rules items
  | _, _ => .ok ()

/-- The place of the first field that must be there, from `position` on. -/
def firstRequired? (rules : List FieldRule) (position : Nat) : Option Nat :=
  ((rules.drop position).findIdx? fun rule => !rule.optional).map (position + ·)

/-- The shape of a record, `name` being what messages call it. -/
def shape {α : Type} (record : Record α) (name : String) : Shape α
  | .object members => do
    checkMembers record.rules members
    record.build fun key => member? key members
  | .array items => do
    checkItems record.rules items
    match firstRequired? record.rules items.length with
    | some position => .error (.tooShort position name record.rules.length)
    | none =>
      if record.rules.length < items.length then .error (.tooLong items.length)
      else record.build fun key => List.lookup key ((record.rules.map (·.name)).zip items)
  | other => .error (.wrongType other.found ("struct " ++ name))

end Record

end HubLink.Json
