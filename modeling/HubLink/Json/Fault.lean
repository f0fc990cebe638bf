import HubLink.LinkFault
import HubLink.Json.Value
import HubLink.Text.Bytes

/-!
# What is wrong with a JSON text

A text can break off early, break the grammar, or hold a value of the wrong shape.  Only a wrong
shape has something to say about the text: which field, what stands there, what was expected.
-/

namespace HubLink.Json

/-- What stands in the place of an expected value, as far as a message shows it. -/
inductive Found where
  | null
  | bool (value : Bool)
  | integer (value : Int)
  | real (value : Double)
  | string (value : String)
  | sequence
  | map
  deriving DecidableEq, Repr

/-- What a message shows of a value. -/
def found : Json → Found
  | .null => .null
  | .bool value => .bool value
  | .integer value => .integer value
  | .real value => .real value
  | .string value => .string value
  | .array _ => .sequence
  | .object _ => .map

/-- The wording of what was found. -/
def Found.message : Found → String
  | .null => "null"
  | .bool value => "boolean \x60" ++ (if value then "true" else "false") ++ "\x60"
  | .integer value => s!"integer \x60{value}\x60"
  | .real value => "floating point \x60" ++ String.ofList value.text ++ "\x60"
  | .string value => "string " ++ Text.quoted value
  | .sequence => "sequence"
  | .map => "map"

/-- A value that does not have the expected shape. -/
inductive Mismatch where
  /-- A required field is absent. -/
  | missingField (field : String)
  /-- A known field stands twice. -/
  | duplicateField (field : String)
  /-- A value of another type. -/
  | wrongType (found : Found) (expected : String)
  /-- A whole number that the expected type does not hold. -/
  | outOfRange (value : Int) (expected : String)
  /-- A name that is none of the known ones. -/
  | unknownName (name : String) (known : List String)
  /-- A sequence that ends before the record's field at `position`. -/
  | tooShort (position : Nat) (record : String) (size : Nat)
  /-- A sequence longer than the record has fields. -/
  | tooLong (size : Nat)
  /-- A text that breaks a rule of its own. -/
  | refused (reason : LinkFault)
  deriving DecidableEq, Repr

/-- A name between the marks that messages set around names. -/
def marked (name : String) : String :=
  "\x60" ++ name ++ "\x60"

/-- The known names as a message lists them. -/
def alternatives : List String → String
  | [first, second] => marked first ++ " or " ++ marked second
  | names => "one of " ++ ", ".intercalate (names.map marked)

/-- The wording of a mismatch. -/
def Mismatch.message : Mismatch → String
  | .missingField field => "missing field " ++ marked field
  | .duplicateField field => "duplicate field " ++ marked field
  | .wrongType found expected => s!"invalid type: {found.message}, expected {expected}"
  | .outOfRange value expected =>
    "invalid value: integer " ++ marked (toString value) ++ ", expected " ++ expected
  | .unknownName name known =>
    "unknown variant " ++ marked name ++ ", expected " ++ alternatives known
  | .tooShort position record size =>
    s!"invalid length {position}, expected struct {record} with {size} " ++
      (if size = 1 then "element" else "elements")
  | .tooLong size => s!"invalid length {size}, expected fewer elements in array"
  | .refused reason => reason.message

/-- What is wrong with a JSON text. -/
inductive Fault where
  /-- The text breaks the grammar. -/
  | malformed
  /-- The text ends early. -/
  | truncated
  /-- The text is JSON of the wrong shape. -/
  | mismatch (cause : Mismatch)
  deriving DecidableEq, Repr

/-- The wording of a fault, its place in the text aside. -/
def Fault.message : Fault → String
  | .malformed => "malformed JSON"
  | .truncated => "unexpected end of JSON"
  | .mismatch cause => cause.message

/-- A reader takes a value from the front of a text and leaves the rest. -/
abbrev Reader (α : Type) :=
  List UInt8 → Except Fault (α × List UInt8)

end HubLink.Json
