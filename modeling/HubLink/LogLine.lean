import HubLink.Text.Quoted

/-!
# Lines of the log

Every event is one line of aligned columns: the time, the service with the part of it that speaks,
the level, the message.  On a terminal the line is coloured by its level.
-/

namespace HubLink

/-- How much an event matters. -/
inductive LogLevel where
  | error
  | warn
  | info
  | debug
  | trace
  deriving DecidableEq, Repr, Inhabited

namespace LogLevel

/-- The name of a level. -/
def name : LogLevel → String
  | .error => "error"
  | .warn => "warn"
  | .info => "info"
  | .debug => "debug"
  | .trace => "trace"

/-- All levels, what matters most first. -/
def all : List LogLevel :=
  [.error, .warn, .info, .debug, .trace]

/-- The level of a name. -/
def ofName? (name : String) : Option LogLevel :=
  all.find? fun level => level.name == name

/-- A level as it stands in a line. -/
def label : LogLevel → String
  | .error => "✗ ERROR"
  | .warn => "⚠ WARN"
  | .info => "ℹ INFO"
  | .debug => "◦ DEBUG"
  | .trace => "◦ TRACE"

/-- The sequence that starts the colour of a level on a terminal. -/
def colour : LogLevel → String
  | .error => "\x1b[91m"
  | .warn => "\x1b[93m"
  | .info => "\x1b[32m"
  | .debug | .trace => "\x1b[90m"

end LogLevel

namespace LogLine

/-- The characters of the service column. -/
def serviceWidth : Nat := 20

/-- The characters of the level column. -/
def levelWidth : Nat := 9

/-- The sequence that starts the colour of the time and the service. -/
def cyan : String := "\x1b[36m"

/-- The sequence that ends a colour. -/
def reset : String := "\x1b[0m"

/-- A text filled with spaces up to a width. -/
def padded (width : Nat) (text : String) : String :=
  text ++ String.ofList (List.replicate (width - text.length) ' ')

/-- A text without the quotes around it, if it has a pair of them. -/
def stripQuotes (text : String) : String :=
  match text.toList with
  | '"' :: rest => if rest.getLast? = some '"' then String.ofList rest.dropLast else text
  | _ => text

/-- The value of a field of an event. -/
inductive Value where
  /-- A text, which is kept as it is. -/
  | text (value : String)
  /-- Any value in the form in which it is shown; quotes around it are left out. -/
  | shown (form : String)
  deriving DecidableEq, Repr

/-- A value as it stands in a line. -/
def Value.display : Value → String
  | .text value => value
  | .shown form => stripQuotes form

/-- What is said. -/
structure Event where
  level : LogLevel
  /-- The part of the service that speaks, if it is told. -/
  component : Option Value := none
  message : Value
  deriving DecidableEq, Repr

/-- The service with the part of it that speaks. -/
def speaker (service : String) : Option String → String
  | none => service
  | some component => service ++ "-" ++ component

/-- A name in the service column; the end of a long one gives way to an ellipsis. -/
def serviceColumn (name : String) : String :=
  if serviceWidth < name.length then String.ofList (name.toList.take (serviceWidth - 1)) ++ "…"
  else padded serviceWidth name

/-- Colours are for terminals that can show them. -/
def usesColour (terminal : Option String) : Bool :=
  match terminal with
  | none => false
  | some kind => kind != "dumb"

/-- The line of an event. -/
def format (service : String) (coloured : Bool) (time : String) (event : Event) : String :=
  let paint (sequence : String) := if coloured then sequence else ""
  let name := speaker service (event.component.map Value.display)
  paint cyan ++ "[" ++ time ++ "] [" ++ serviceColumn name ++ "] [" ++
    paint event.level.colour ++ padded levelWidth event.level.label ++ paint reset ++ "] " ++
    event.message.display ++ paint reset ++ "\n"

end LogLine

end HubLink
