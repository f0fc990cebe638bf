import HubLink.Log.Chunking
import HubLink.Message.Codec
import HubLink.Message.Stamp

/-!
# Exporting a log

An export wraps each chunk of a log into an envelope of its own and frames it.  It stops at the first
envelope that does not fit; what was framed before is already on its way.
-/

namespace HubLink.Log

/-- The envelopes of some chunks, each with the stamp of its number. -/
def envelopes (version : String) (stamps : Nat → Message.Stamp)
    (chunks : List Message.LogChunk) : List Message.Envelope :=
  chunks.zipIdx.map fun (chunk, index) => (stamps index).envelope version (.nodeLogChunk chunk)

/-- The frames of some envelopes up to the first one that has none, and why it has none. -/
def frames (limit : Nat) : List Message.Envelope → List (List UInt8) × Option Message.Codec.Fault
  | [] => ([], none)
  | envelope :: rest =>
    match Message.Codec.encode limit envelope with
    | .error fault => ([], some fault)
    | .ok frame =>
      let (more, fault) := frames limit rest
      (frame :: more, fault)

end HubLink.Log
