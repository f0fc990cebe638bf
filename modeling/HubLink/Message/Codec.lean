import HubLink.Frame.Stream
import HubLink.Message.Envelope

/-!
# Envelopes in frames

A frame carries the compact text of one envelope.  Faults come in layers, and callers treat them
differently: a corrupt frame is sent again, an oversized one tells that the stream has lost its step,
an unknown kind comes from a newer peer, a malformed text is nobody's to repair.
-/

namespace HubLink.Message.Codec

/-- Why an envelope could not be encoded or decoded. -/
inductive Fault where
  /-- The payload hashes to `computed`, its frame states `stated`. -/
  | corrupt (stated computed : UInt32)
  /-- A payload of this many bytes exceeds the limit. -/
  | oversize (size : Nat)
  /-- A sound frame whose text is no envelope. -/
  | malformed (cause : Json.Fault)
  /-- An envelope of a kind that is not known. -/
  | unknownKind (name : String)
  /-- An envelope with a reading that has no JSON form. -/
  | encode (reading : Binary.NonFinite)
  deriving DecidableEq, Repr

namespace Fault

/-- A damaged frame is the only fault that sending again may cure. -/
def isCorrupt : Fault → Bool
  | .corrupt _ _ => true
  | _ => false

/-- A fault of the link as a fault of the codec. -/
def ofLink : LinkFault → Fault
  | .checksum stated computed => .corrupt stated computed
  | .size bytes => .oversize bytes
  | .address text => .malformed (.mismatch (.refused (.address text)))

/-- A fault of the envelope as a fault of the codec. -/
def ofEnvelope : Envelope.Fault → Fault
  | .malformed cause => .malformed cause
  | .unknownKind name => .unknownKind name

/-- The wording for a reading that has no JSON form. -/
def readingMessage (reading : Binary.NonFinite) : String :=
  "non-finite reading " ++ reading.name

/-- The wording of a fault, `wording` being that of what is wrong with a JSON text. -/
def message (fault : Fault) (wording : Json.Fault → String := Json.Fault.message) : String :=
  match fault with
  | .corrupt stated computed =>
    s!"corrupt frame: checksum {Hex.word32 stated} != computed {Hex.word32 computed}"
  | .oversize size => s!"frame payload of {size} bytes exceeds limit"
  | .malformed cause => "malformed envelope: " ++ wording cause
  | .unknownKind name => unknownKindMessage name
  | .encode reading => "envelope encoding failed: " ++ readingMessage reading

end Fault

/-- The frame of an envelope, under a payload limit. -/
def encode (limit : Nat) (envelope : Envelope) : Except Fault (List UInt8) :=
  match envelope.print with
  | .error reading => .error (.encode reading)
  | .ok text =>
    match (Frame.mk text).encode limit with
    | .error fault => .error (.ofLink fault)
    | .ok frame => .ok frame

/-- The envelope of what a frame reader found. -/
def ofFrame : Except LinkFault (Option Frame) → Except Fault (Option Envelope)
  | .error fault => .error (.ofLink fault)
  | .ok none => .ok none
  | .ok (some frame) =>
    match Envelope.parse frame.payload with
    | .error fault => .error (.ofEnvelope fault)
    | .ok envelope => .ok (some envelope)

/-- The envelope in the first frame of a buffer; `none` when more bytes are needed. -/
def decode (limit : Nat) (buffer : List UInt8) : Except Fault (Option Envelope) :=
  ofFrame ((Frame.decode limit buffer).map fun found => found.map Prod.fst)

/-- Polls the front of a receive buffer: the outcome, and what stays in the buffer.  A whole frame
leaves the buffer whatever its content. -/
def poll (limit : Nat) (buffer : List UInt8) : Except Fault (Option Envelope) × List UInt8 :=
  let (outcome, rest) := Frame.poll limit buffer
  (ofFrame outcome, rest)

end HubLink.Message.Codec
