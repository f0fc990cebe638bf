import HubLink.Log.Export
import HubLink.Message.Payload.Shape
import HubLink.Replay
import HubLink.Settings
import HubLink.Text.Trim
import HubLink.Tool.Command

/-!
# Running the tool

A run reads files and the environment, makes envelopes with stamps, and ends with some printed lines
and a status.  The world comes in as an argument (`World`), so a run is a function of it.

What was printed before a run fails stays printed.  What the JSON reader says of a fault goes down to
the line and the column of the text, which a `Json.Fault` does not keep; so this wording is part of
the world.
-/

namespace HubLink.Tool

/-- What a run sees of the world. -/
structure World where
  /-- The content of a file, if it can be read. -/
  file : String → Option (List UInt8)
  environment : Settings.Environment
  /-- The stamps of the envelopes that are made, by number. -/
  stamp : Nat → Message.Stamp
  /-- What the JSON reader says of a fault in the text of a frame. -/
  wording : (frame : List UInt8) → Json.Fault → String := fun _ cause => cause.message

/-- Why a run fails. -/
inductive Failure where
  /-- The text names no log level. -/
  | logLevel (text : String)
  /-- No kind of message has this name. -/
  | unknownKind (name : String)
  /-- The payload is not JSON. -/
  | payloadText (fault : Json.Fault)
  /-- The payload is JSON, but none that its kind asks for. -/
  | payloadShape (kind : Message.Kind) (cause : Json.Mismatch)
  /-- An envelope has no frame. -/
  | frame (fault : Message.Codec.Fault)
  /-- An envelope that was read has no written form. -/
  | unprintable (reading : Binary.NonFinite)
  /-- The text of a frame is not hexadecimal. -/
  | frameText
  /-- The text of an advertisement is not hexadecimal. -/
  | advertisementText
  /-- There are too few bytes for an advertisement. -/
  | advertisementSize (size : Nat)
  /-- No fault has this name. -/
  | unknownFault (name : String)
  /-- A capture cannot be read. -/
  | capture (file : String)
  /-- A log cannot be read. -/
  | log (file : String)
  deriving Repr

/-- The wording of a failure. -/
def Failure.message : Failure → String
  | .logLevel _ =>
    "error parsing level filter: expected one of \"off\", \"error\", \"warn\", \"info\", " ++
      "\"debug\", \"trace\", or a number 0-5"
  | .unknownKind name => Message.unknownKindMessage name
  | .payloadText _ => "payload is not valid JSON"
  | .payloadShape kind _ => "payload does not match the " ++ kind.name ++ " shape"
  | .frame fault => fault.message
  | .unprintable reading => Message.Codec.Fault.readingMessage reading
  | .frameText => "frame is not valid hex"
  | .advertisementText => "advertisement is not valid hex"
  | .advertisementSize size =>
    s!"advertisement must be {Node.Advertisement.size} bytes, got {size}"
  | .unknownFault name => "unknown fault " ++ Text.quoted name
  | .capture file => "reading capture " ++ Text.quotedName file
  | .log file => "reading log " ++ Text.quotedName file

/-- How a run ends. -/
inductive Status where
  | success
  | failed (failure : Failure)
  /-- The command line makes no sense. -/
  | misused
  deriving Repr

/-- The exit code of a status. -/
def Status.exitCode : Status → UInt32
  | .success => 0
  | .failed _ => 1
  | .misused => 2

/-- What a run prints, each text followed by a line break, and how it ends. -/
structure Outcome where
  printed : List String
  status : Status
  deriving Repr

namespace Outcome

/-- A run that prints one text. -/
def print (text : String) : Outcome :=
  ⟨[text], .success⟩

/-- A run that fails before it prints anything. -/
def fail (failure : Failure) : Outcome :=
  ⟨[], .failed failure⟩

/-- A run that prints one text or fails. -/
def ofExcept : Except Failure String → Outcome
  | .ok text => print text
  | .error failure => fail failure

end Outcome

/-! ## Frames -/

/-- The payload of a kind that a JSON text describes. -/
def payloadOf (kind : Message.Kind) (text : String) : Except Failure Message.Payload :=
  match Json.parse (Text.bytes text) with
  | .error fault => .error (.payloadText fault)
  | .ok value =>
    match Message.Payload.ofJson kind value with
    | .error cause => .error (.payloadShape kind cause)
    | .ok payload => .ok payload

/-- The frame of an envelope of a kind and a payload; an id that is given replaces that of the
stamp. -/
def encodeFrame (settings : Settings) (stamp : Message.Stamp) (kind payload : String)
    (correlationId : Option String) : Except Failure (List UInt8) := do
  match Message.Kind.ofName? kind with
  | none => .error (.unknownKind kind)
  | some kind =>
    let payload ← payloadOf kind payload
    let stamp := { stamp with correlationId := correlationId.getD stamp.correlationId }
    match Message.Codec.encode settings.maxFrameSize
        (stamp.envelope settings.schemaVersion payload) with
    | .error fault => .error (.frame fault)
    | .ok frame => .ok frame

/-- What is told of the first frame of a buffer. -/
def describeFrame (world : World) (settings : Settings) (buffer : List UInt8) :
    Except Failure String :=
  match Message.Codec.decode settings.maxFrameSize buffer with
  | .ok none => .ok s!"incomplete: {buffer.length} bytes buffered"
  | .ok (some envelope) =>
    match envelope.printIndented with
    | .ok text => .ok (Text.ofBytes text)
    | .error reading => .error (.unprintable reading)
  | .error (.unknownKind name) => .ok ("unknown kind: " ++ name)
  | .error (.corrupt stated computed) =>
    .ok ("corrupt: " ++ (Message.Codec.Fault.corrupt stated computed).message)
  | .error (.oversize size) => .ok ("oversize: " ++ (Message.Codec.Fault.oversize size).message)
  | .error fault => .ok ("malformed: " ++ fault.message (world.wording buffer))

/-- The bytes that a hexadecimal text stands for, white space around it aside. -/
def bytesOf (failure : Failure) (text : String) : Except Failure (List UInt8) :=
  match Hex.decode? (Text.trim text) with
  | none => .error failure
  | some bytes => .ok bytes

/-! ## Advertisements -/

/-- The bytes of an advertisement with the named faults. -/
def encodeAdvertisement (advertisement : Node.Advertisement) (faults : List String) :
    Except Failure (List UInt8) :=
  match Node.FaultFlags.ofNames? faults with
  | .error name => .error (.unknownFault name)
  | .ok faultFlags => .ok { advertisement with faultFlags }.encode

/-- What is told of an advertisement: its fields, and its faults by name. -/
def describeAdvertisement (advertisement : Node.Advertisement) : String :=
  Text.ofBytes <| Json.printIndented 0 <| .object
    [("advertisement", advertisement.toJson),
      ("faults", .array (advertisement.faultFlags.names.map .string))]

/-- What is told of the bytes of an advertisement, received at the given strength. -/
def decodeAdvertisement (bytes : List UInt8) (rssi : Option Int16) : Except Failure String :=
  match Node.Advertisement.decode bytes with
  | none => .error (.advertisementSize bytes.length)
  | some advertisement =>
    .ok (describeAdvertisement
      (match rssi with
      | none => advertisement
      | some rssi => advertisement.withRssi rssi))

/-! ## Files -/

/-- What is told of a replay of the capture in a file. -/
def replayFile (world : World) (settings : Settings) (file : String) : Except Failure String :=
  match world.file file with
  | none => .error (.capture file)
  | some capture => .ok (Replay.run settings.maxFrameSize settings.queue capture).summary

/-- Exports the end of the log in a file, a frame a line. -/
def exportFile (world : World) (settings : Settings) (file jobId nodeId : String)
    (maxBytes : UInt32) : Outcome :=
  match world.file file with
  | none => .fail (.log file)
  | some log =>
    let chunks := Log.chunks settings.logChunkSize jobId nodeId log maxBytes
    let (frames, fault) := Log.frames settings.maxFrameSize
      (Log.envelopes settings.schemaVersion world.stamp chunks)
    ⟨frames.map Hex.encode, (fault.map fun fault => Status.failed (.frame fault)).getD .success⟩

/-! ## Runs -/

/-- Carries out a command. -/
def Command.run (world : World) (settings : Settings) : Command → Outcome
  | .encode kind payload correlationId => .ofExcept do
    return Hex.encode (← encodeFrame settings (world.stamp 0) kind payload correlationId)
  | .decode hex => .ofExcept do
    describeFrame world settings (← bytesOf .frameText hex)
  | .encodeAdvertisement advertisement faults => .ofExcept do
    return Hex.encode (← Tool.encodeAdvertisement advertisement faults)
  | .decodeAdvertisement hex rssi => .ofExcept do
    Tool.decodeAdvertisement (← bytesOf .advertisementText hex) rssi
  | .replay file => .ofExcept (replayFile world settings file)
  | .exportLog file jobId nodeId maxBytes => exportFile world settings file jobId nodeId maxBytes

/-- Whether a text is one level down to which events are logged: a name in any case, a number, or
nothing.  Filters that give a level to each of several parts of a program are not known here. -/
def isLogLevel (text : String) : Bool :=
  ("" :: "off" :: LogLevel.all.map LogLevel.name).contains (text.map Char.toLower) ||
    (Text.natBelow? 6 text).isSome

/-- Carries out an invocation. -/
def Invocation.run (world : World) (invocation : Invocation) : Outcome :=
  if !isLogLevel invocation.logLevel then .fail (.logLevel invocation.logLevel)
  else
    let settings := Settings.load (world.file invocation.settingsFile) world.environment
    invocation.command.run world settings

/-- The name and the version of the tool. -/
def versionText : String := "hub-ipc 0.1.0"

/-- How the tool is called, in a few words; the options of a command are not explained. -/
def helpText : String :=
  "Inspect and replay BLE hub IPC traffic\n\n" ++
    "Usage: hub-ipc [--config FILE] [--log-level LEVEL] COMMAND\n\n" ++
    "Commands: " ++ ", ".intercalate (grammars.map Prod.fst)

/-- What is printed instead of a run. -/
def Outcome.ofStop : Stop → Outcome
  | .help => .print helpText
  | .version => .print versionText
  | .misuse => ⟨[], .misused⟩

/-- Runs the tool with the given arguments. -/
def run (world : World) (arguments : List String) : Outcome :=
  match Invocation.ofArguments arguments with
  | .ok invocation => invocation.run world
  | .error stop => .ofStop stop

end HubLink.Tool
