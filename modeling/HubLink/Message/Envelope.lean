import HubLink.Json.TextRecord
import HubLink.Message.Payload.Document
import HubLink.Message.Payload.Shape
import HubLink.Text.Whole

/-!
# Envelopes

An envelope is a payload with what a receiver needs to route it: the schema version of the sender, a
correlation id that a reply repeats, and the time of sending.  The kind is not a field of its own; it
is the kind of the payload, and only the written form names it.

Reading an envelope has three layers.  The header must be well typed JSON, then its kind must be
known, and only then is the body looked at.  So a message of a kind that a newer peer has added is
told apart from a message that is broken.
-/

namespace HubLink.Message

/-- The schema version of this library. -/
def schemaVersion : String := "1.0.0"

/-- A message as the processors exchange it. -/
structure Envelope where
  version : String
  correlationId : String
  /-- The time of sending in milliseconds. -/
  timestamp : Int64
  payload : Payload
  deriving BEq, Repr

/-- Why a text is no envelope. -/
inductive Envelope.Fault where
  /-- Not JSON, or not of the right shape. -/
  | malformed (cause : Json.Fault)
  /-- A well-formed header that names a kind that is not known. -/
  | unknownKind (name : String)
  deriving DecidableEq, Repr

namespace Envelope

/-- The kind of an envelope. -/
def kind (envelope : Envelope) : Kind :=
  envelope.payload.kind

/-- The reply to a request: its correlation id under the own schema version. -/
def replyTo (request : Envelope) (timestamp : Int64) (payload : Payload) : Envelope :=
  ⟨schemaVersion, request.correlationId, timestamp, payload⟩

/-- The part of a version before its first point, as a number. -/
def majorVersion? (version : String) : Option Nat :=
  Text.natBelow? UInt64.size (String.ofList (version.toList.takeWhile (· != '.')))

/-- Whether the sender's schema can be read here: the major versions are numbers and agree. -/
def isCompatible (envelope : Envelope) : Bool :=
  (majorVersion? envelope.version).isSome &&
    majorVersion? envelope.version == majorVersion? schemaVersion

/-! ## Writing -/

/-- The members of the written form in order, with the written body last. -/
def fields (envelope : Envelope) (payload : Json) : List (String × Json) :=
  [("version", .string envelope.version), ("type", .string envelope.kind.name),
    ("correlationId", .string envelope.correlationId),
    ("timestamp", .integer envelope.timestamp.toInt), ("payload", payload)]

/-- The compact text of an envelope, unless a reading is not finite. -/
def print (envelope : Envelope) : Except Binary.NonFinite (List UInt8) := do
  let payload ← envelope.payload.toJson
  return Json.print (.object (envelope.fields payload))

/-- The indented text of an envelope, unless a reading is not finite. -/
def printIndented (envelope : Envelope) : Except Binary.NonFinite (List UInt8) := do
  let payload ← envelope.payload.toJson
  return Json.printIndented 0 (.object (envelope.fields payload))

/-! ## Reading -/

/-- The header of an envelope, with a body that has not been looked at. -/
structure Header where
  version : String
  kind : String
  correlationId : String
  timestamp : Int64
  payload : Json
  deriving BEq, Repr

/-- What has been read of a header. -/
structure Draft where
  version : Option String := none
  kind : Option String := none
  correlationId : Option String := none
  timestamp : Option Int64 := none
  payload : Option Json := none

open Json (TextField)
open Json.TextRecord (need)

/-- The fields of a header in order; a payload that is absent counts as null. -/
def headerFields : List (TextField Draft) :=
  [{ name := "version", optional := false, filled := (·.version.isSome)
     read := fun _ draft text => do
      let (value, rest) ← Json.readText text
      .ok ({ draft with version := some value }, rest) },
   { name := "type", optional := false, filled := (·.kind.isSome)
     read := fun _ draft text => do
      let (value, rest) ← Json.readText text
      .ok ({ draft with kind := some value }, rest) },
   { name := "correlationId", optional := false, filled := (·.correlationId.isSome)
     read := fun _ draft text => do
      let (value, rest) ← Json.readText text
      .ok ({ draft with correlationId := some value }, rest) },
   { name := "timestamp", optional := false, filled := (·.timestamp.isSome)
     read := fun _ draft text => do
      let (value, rest) ← Json.readWholeAs "i64" Json.Shape.i64 text
      .ok ({ draft with timestamp := some value }, rest) },
   { name := "payload", optional := true, filled := (·.payload.isSome)
     read := fun budget draft text => do
      let (value, rest) ← Json.readValue budget text
      .ok ({ draft with payload := some value }, rest) }]

/-- The header of a draft, once no field is missing. -/
def Draft.finish (draft : Draft) : Except Json.Fault Header := do
  return {
    version := ← need "version" draft.version
    kind := ← need "type" draft.kind
    correlationId := ← need "correlationId" draft.correlationId
    timestamp := ← need "timestamp" draft.timestamp
    payload := draft.payload.getD .null }

/-- Reads a header from the front of a text. -/
def readHeader : Json.Reader Header := fun text => do
  let (draft, rest) ← Json.TextRecord.read "RawEnvelope" headerFields {} Json.nestingLimit text
  .ok (← draft.finish, rest)

/-- Gives a header the payload that its kind asks for. -/
def ofHeader (header : Header) : Except Fault Envelope :=
  match Kind.ofName? header.kind with
  | none => .error (.unknownKind header.kind)
  | some kind =>
    match Payload.ofJson kind header.payload with
    | .error cause => .error (.malformed (.mismatch cause))
    | .ok payload => .ok ⟨header.version, header.correlationId, header.timestamp, payload⟩

/-- The envelope that a text holds. -/
def parse (text : List UInt8) : Except Fault Envelope :=
  match Json.readAll readHeader text with
  | .error cause => .error (.malformed cause)
  | .ok header => ofHeader header

end Envelope

end HubLink.Message
