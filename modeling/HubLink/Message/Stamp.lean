import HubLink.Message.CorrelationId
import HubLink.Message.Envelope

/-!
# Stamps

What an envelope carries beside its payload is settled at the moment it is made: an id, and the time.
Both come from outside, from a clock and from chance, so they are arguments here.
-/

namespace HubLink.Message

/-- What is put on an envelope when it is made. -/
structure Stamp where
  correlationId : String
  /-- The time of sending in milliseconds. -/
  timestamp : Int64
  deriving DecidableEq, Repr, Inhabited

namespace Stamp

/-- The stamp of a moment with a generated id. -/
def generate (timestamp : Int64) (draws : List Nat) : Stamp :=
  ⟨CorrelationId.generate timestamp.toInt draws, timestamp⟩

/-- The envelope with a given version, stamp and payload. -/
def envelope (stamp : Stamp) (version : String) (payload : Payload) : Envelope :=
  ⟨version, stamp.correlationId, stamp.timestamp, payload⟩

end Stamp

end HubLink.Message
