/-!
# Arguments of a command line

A command line is read from left to right.  An option is a name behind two hyphens with a value, which
is attached by an equals sign or is the next argument; an operand is an argument by itself.  The
first thing that is wrong ends the reading, and so does a question for help or for the version.
-/

namespace HubLink.Tool

/-- A value that a command line may give. -/
structure Slot where
  name : String
  /-- Whether it may be given more than once. -/
  repeatable : Bool := false
  /-- Whether a value that looks like an option is still a value. -/
  takesHyphens : Bool := false
  /-- Whether a text will do as its value. -/
  accepts : String → Bool := fun _ => true

/-- What a command line may hold. -/
structure Grammar where
  options : List Slot
  /-- The one argument that stands by itself, if there is one. -/
  operand : Option Slot := none
  /-- The names of commands; the first of them ends the command line, the rest being its own. -/
  commands : List String := []
  /-- Whether a question for the version is answered. -/
  hasVersion : Bool := false

/-- Why a command line is not carried out. -/
inductive Stop where
  | misuse
  | help
  | version
  deriving DecidableEq, Repr

/-- What a command line gives. -/
structure Given where
  /-- The values under the names of their slots, in order. -/
  values : List (String × String) := []
  /-- The command and the arguments behind it. -/
  command : Option (String × List String) := none
  deriving DecidableEq, Repr

namespace Given

/-- The value of a slot, if it is given. -/
def value? (given : Given) (name : String) : Option String :=
  given.values.lookup name

/-- All values of a slot. -/
def allValues (given : Given) (name : String) : List String :=
  (given.values.filter (·.1 == name)).map Prod.snd

/-- Adds a value, unless it will not do or contradicts one that is there. -/
def put (given : Given) (slot : Slot) (value : String) : Except Stop Given :=
  if ((given.value? slot.name).isSome && !slot.repeatable) || !slot.accepts value then
    .error .misuse
  else .ok { given with values := given.values ++ [(slot.name, value)] }

end Given

/-- What an argument looks like. -/
inductive Shape where
  /-- Two hyphens alone: everything behind is an operand. -/
  | terminator
  /-- Two hyphens and a name, and the value attached to it. -/
  | long (name : String) (value : Option String)
  /-- A hyphen and at least one character. -/
  | short (first : Char)
  /-- Anything else. -/
  | plain
  deriving DecidableEq, Repr

/-- The name and the attached value of an option. -/
def splitLong (chars : List Char) : Shape :=
  let (name, rest) := chars.span (· != '=')
  .long (String.ofList name) (rest.tail? |>.map String.ofList)

/-- What an argument looks like. -/
def shape (argument : String) : Shape :=
  match argument.toList with
  | ['-', '-'] => .terminator
  | '-' :: '-' :: chars => splitLong chars
  | '-' :: c :: _ => .short c
  | _ => .plain

namespace Grammar

/-- The slot of an option. -/
def option? (grammar : Grammar) (name : String) : Option Slot :=
  grammar.options.find? fun slot => slot.name == name

/-- Adds an operand. -/
def putOperand (grammar : Grammar) (given : Given) (argument : String) : Except Stop Given :=
  match grammar.operand with
  | none => .error .misuse
  | some slot => given.put slot argument

/-- What an option that takes no value asks for. -/
def question (grammar : Grammar) (isHelp isVersion : Bool) : Stop :=
  if isHelp then .help else if isVersion && grammar.hasVersion then .version else .misuse

/-- Reads arguments.  `pending` is an option that waits for its value, and behind a terminator there
are only operands. -/
def readFrom (grammar : Grammar) :
    (pending : Option Slot) → (onlyOperands : Bool) → Given → List String → Except Stop Given
  | some _, _, _, [] => .error .misuse
  | none, _, given, [] => .ok given
  | some slot, _, given, argument :: rest => do
    if slot.takesHyphens || shape argument = .plain then
      readFrom grammar none false (← given.put slot argument) rest
    else .error .misuse
  | none, true, given, argument :: rest => do
    readFrom grammar none true (← grammar.putOperand given argument) rest
  | none, false, given, argument :: rest => do
    if grammar.commands.contains argument then
      .ok { given with command := some (argument, rest) }
    else
      match shape argument with
      | .terminator => readFrom grammar none true given rest
      | .plain => readFrom grammar none false (← grammar.putOperand given argument) rest
      | .short first => .error (grammar.question (first == 'h') (first == 'V'))
      | .long name value =>
        match grammar.option? name, value with
        | some slot, some value => readFrom grammar none false (← given.put slot value) rest
        | some slot, none => readFrom grammar (some slot) false given rest
        | none, some _ => .error .misuse
        | none, none => .error (grammar.question (name == "help") (name == "version"))

/-- Reads a command line. -/
def read (grammar : Grammar) (arguments : List String) : Except Stop Given :=
  readFrom grammar none false {} arguments

end Grammar

end HubLink.Tool
