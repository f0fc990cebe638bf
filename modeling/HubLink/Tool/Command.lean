import HubLink.Binary.Typed
import HubLink.LogLine
import HubLink.Node.Advertisement
import HubLink.Text.Whole
import HubLink.Tool.Arguments

/-!
# Commands of the tool

The tool makes and takes apart single frames and advertisements, replays captures and exports logs.
This module says which options each command has, and turns a command line into a command.
-/

namespace HubLink.Tool

/-- What the tool is asked to do. -/
inductive Command where
  /-- Build an envelope and print its frame. -/
  | encode (kind payload : String) (correlationId : Option String)
  /-- Decode a frame and print the outcome. -/
  | decode (hex : String)
  /-- Print an advertisement with the named faults. -/
  | encodeAdvertisement (advertisement : Node.Advertisement) (faults : List String)
  /-- Decode an advertisement and print it. -/
  | decodeAdvertisement (hex : String) (rssi : Option Int16)
  /-- Replay a capture and print what came of it. -/
  | replay (file : String)
  /-- Export a log as frames. -/
  | exportLog (file jobId nodeId : String) (maxBytes : UInt32)

/-- The file that a command reads, if it reads one. -/
def Command.file? : Command → Option String
  | .replay file | .exportLog file _ _ _ => some file
  | _ => none

/-- A command with what holds for every command. -/
structure Invocation where
  /-- The file with the settings. -/
  settingsFile : String
  /-- The level down to which events are logged. -/
  logLevel : String
  command : Command

/-- The files that an invocation reads. -/
def Invocation.files (invocation : Invocation) : List String :=
  invocation.settingsFile :: invocation.command.file?.toList

/-! ## Values of options -/

/-- The number below `bound` that a text stands for; a minus is allowed in front of a zero. -/
def nat? (bound : Nat) (text : String) : Option Nat :=
  ((Text.intWithin? (Int64.size / 2) text).filter fun n : Int => 0 ≤ n && n < bound).map Int.toNat

/-- The number of a company, decimal, or hexadecimal behind `0x`. -/
def company? (text : String) : Option UInt16 :=
  match text.toList with
  | '0' :: 'x' :: digits | '0' :: 'X' :: digits =>
    ((Text.digitsIn? 16 (Text.dropPlus digits)).filter (· < UInt16.size)).map UInt16.ofNat
  | _ => (Text.natBelow? UInt16.size text).map UInt16.ofNat

/-- The hardware address that a text stands for. -/
def address? (text : String) : Option Node.Address :=
  (Node.Address.parse text).toOption

/-- The signal strength that a text stands for. -/
def rssi? (text : String) : Option Int16 :=
  (Text.intWithin? (Int16.size / 2) text).map Int16.ofInt

/-- The faults that an option names, separated by commas. -/
def faultNames (text : String) : List String :=
  text.splitOn ","

/-! ## Slots -/

/-- A slot for the name of a file, which is never empty. -/
def fileSlot (name : String) : Slot :=
  { name, accepts := (!·.isEmpty) }

/-- A slot for a value that a reader understands. -/
def readSlot {α : Type} (name : String) (reader : String → Option α) : Slot :=
  { name, accepts := fun text => (reader text).isSome }

/-- The options of every command. -/
def commonOptions : List Slot :=
  [fileSlot "config", { name := "log-level" }]

/-- The options and the operand of each command. -/
def grammars : List (String × Grammar) :=
  [("encode",
      { options := commonOptions ++
          [{ name := "kind" }, { name := "payload" }, { name := "correlation-id" }] }),
    ("decode", { options := commonOptions, operand := some { name := "hex" } }),
    ("adv-encode",
      { options := commonOptions ++
          [readSlot "node-id" address?, readSlot "battery" (nat? UInt8.size),
            readSlot "reading" Single.ofTyped?, readSlot "company-id" company?,
            readSlot "version" (nat? UInt8.size), { name := "faults", repeatable := true },
            readSlot "counter" (nat? UInt16.size)] }),
    ("adv-decode",
      { options := commonOptions ++ [{ readSlot "rssi" rssi? with takesHyphens := true }]
        operand := some { name := "hex" } }),
    ("replay", { options := commonOptions, operand := some (fileSlot "file") }),
    ("chunk-log",
      { options := commonOptions ++
          [{ name := "job-id" }, { name := "node-id" }, readSlot "max-bytes" (nat? UInt32.size)]
        operand := some (fileSlot "file") })]

/-- What may stand in front of a command. -/
def leading : Grammar where
  options := commonOptions
  commands := "help" :: grammars.map Prod.fst
  hasVersion := true

/-! ## From a command line to a command -/

/-- The advertisement that the options of a command describe. -/
def advertisementOf? (given : Given) : Option Node.Advertisement := do
  let nodeId ← (given.value? "node-id").bind address?
  let battery ← (given.value? "battery").bind (nat? UInt8.size)
  let reading ← (given.value? "reading").bind Single.ofTyped?
  let initial := Node.Advertisement.initial nodeId (UInt8.ofNat battery) reading
  some { initial with
    companyId := ((given.value? "company-id").bind company?).getD initial.companyId
    version := (((given.value? "version").bind (nat? UInt8.size)).map UInt8.ofNat).getD initial.version
    counter :=
      (((given.value? "counter").bind (nat? UInt16.size)).map UInt16.ofNat).getD initial.counter }

/-- The command of a name with the values that are given; `none` if one is missing. -/
def commandOf? (name : String) (given : Given) : Option Command :=
  match name with
  | "encode" => do
    some (.encode (← given.value? "kind") ((given.value? "payload").getD "\x7b\x7d")
      (given.value? "correlation-id"))
  | "decode" => (given.value? "hex").map .decode
  | "adv-encode" => do
    some (.encodeAdvertisement (← advertisementOf? given)
      ((given.allValues "faults").flatMap faultNames))
  | "adv-decode" => do
    some (.decodeAdvertisement (← given.value? "hex") ((given.value? "rssi").bind rssi?))
  | "replay" => (given.value? "file").map .replay
  | "chunk-log" => do
    let maxBytes := ((given.value? "max-bytes").bind (nat? UInt32.size)).getD (UInt32.size - 1)
    some (.exportLog (← given.value? "file") (← given.value? "job-id") (← given.value? "node-id")
      (UInt32.ofNat maxBytes))
  | _ => none

/-- A value that may stand on either side of the name of the command; the one behind it counts. -/
def common (front own : Given) (name fallback : String) : String :=
  ((own.value? name).or (front.value? name)).getD fallback

/-- What becomes of a question for help on some commands. -/
def helpOn : List String → Stop
  | [] => .help
  | [name] => if leading.commands.contains name then .help else .misuse
  | _ => .misuse

/-- The invocation that a command line stands for. -/
def Invocation.ofArguments (arguments : List String) : Except Stop Invocation := do
  let front ← leading.read arguments
  match front.command with
  | none => .error .misuse
  | some ("help", rest) => .error (helpOn rest)
  | some (name, rest) =>
    match grammars.lookup name with
    | none => .error .misuse
    | some grammar =>
      let own ← grammar.read rest
      match commandOf? name own with
      | none => .error .misuse
      | some command =>
        .ok ⟨common front own "config" "config.yaml", common front own "log-level" "info", command⟩

end HubLink.Tool
