import HubLink.Text.Ascii
import HubLink.Text.Whole
import HubLink.Yaml.Node

/-!
# Typed values in YAML

Settings are mappings from known names to whole numbers, texts and choices.  These readers turn the
nodes of a document into such values.  They follow aliases, so each takes the root of the document
too, and answer `none` where a node is not what is asked for.
-/

namespace HubLink.Yaml.Node

/-- A scalar that says that there is nothing. -/
def isNull (text : List Char) : Bool :=
  ["null", "Null", "NULL", "~"].contains (String.ofList text)

/-- The tag of a standard type. -/
def standardTag (name : String) : List UInt8 :=
  Text.bytes ("tag:yaml.org,2002:" ++ name)

/-- The text of a scalar, however it is written. -/
def text? (root node : Node) : Option String :=
  match target root node with
  | .scalar _ _ text => some (String.ofList text)
  | _ => none

/-! ## Whole numbers -/

/-- The number that a text stands for: hexadecimal, octal or binary behind its sign, else decimal
without a leading zero.  A plus may stand in front. -/
def wholeNumber? (text : List Char) : Option Nat :=
  match Text.dropPlus text with
  | '0' :: 'x' :: digits => Text.digitsIn? 16 digits
  | '0' :: 'o' :: digits => Text.digitsIn? 8 digits
  | '0' :: 'b' :: digits => Text.digitsIn? 2 digits
  | ['0'] => some 0
  | '0' :: _ => none
  | digits => Text.digitsIn? 10 digits

/-- Whether a scalar may be a number: it is plain, or a literal block tagged as one. -/
def isNumeric (properties : Properties) (style : Style) : Bool :=
  style == .plain || (style == .literal && properties.tag == some (standardTag "int"))

/-- The whole number below `bound` that a node stands for. -/
def natBelow? (bound : Nat) (root node : Node) : Option Nat :=
  match target root node with
  | .scalar properties style text =>
    if isNumeric properties style then (wholeNumber? text).filter (· < bound) else none
  | _ => none

/-! ## Choices -/

/-- The name that a tag of the document's own gives. -/
def ownName? (tag : List UInt8) : Option String :=
  match tag with
  | [] => none
  | b :: rest =>
    if b = Text.byte '!' then Text.ofBytes? (if rest.isEmpty then tag else rest) else none

/-- The value that a node chooses by name.  The name is the text of the node, or its own tag if
nothing else is written. -/
def choice? {α : Type} (named : List (String × α)) (root node : Node) : Option α :=
  match target root node with
  | .scalar properties style text =>
    match properties.tag.bind ownName? with
    | none => named.lookup (String.ofList text)
    | some name =>
      if style == .plain && (text.isEmpty || isNull text) then named.lookup name else none
  | _ => none

/-! ## Mappings -/

/-- The members of a mapping by name.  Where nothing is written there are no members. -/
def members? (root node : Node) : Option (List (String × Node)) :=
  match target root node with
  | .mapping _ members => members.mapM fun (key, value) => do return (← text? root key, value)
  | .scalar _ .plain [] => some []
  | _ => none

/-- The member of the given name, if there is one; a second one of that name is refused. -/
def member? (members : List (String × Node)) (name : String) : Option (Option Node) :=
  match members.filter (·.1 == name) with
  | [] => some none
  | [(_, value)] => some (some value)
  | _ => none

/-- The value of a member, if there is one. -/
def field? {α : Type} (members : List (String × Node)) (name : String)
    (read : Node → Option α) : Option (Option α) := do
  match ← member? members name with
  | none => some none
  | some value => return some (← read value)

/-- Whether a node says that there is nothing; no answer if it says so by its tag alone. -/
def isAbsent? (root node : Node) : Option Bool :=
  match target root node with
  | .scalar properties .plain text =>
    if properties.tag.isNone then some (text.isEmpty || isNull text)
    else if properties.tag != some (standardTag "null") then some false
    else if isNull text then some true
    else none
  | _ => some false

/-- The value of a member that may be written as nothing. -/
def optionalField? {α : Type} (root : Node) (members : List (String × Node)) (name : String)
    (read : Node → Option α) : Option (Option α) := do
  match ← member? members name with
  | none => some none
  | some value => if ← isAbsent? root value then some none else return some (← read value)

end HubLink.Yaml.Node
