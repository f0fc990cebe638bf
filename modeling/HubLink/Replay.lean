import HubLink.Message.Codec
import HubLink.Queue.Delivery

/-!
# Replaying a capture

A capture is what came over the link, byte by byte.  Replaying it polls its front until more bytes
would be needed, and puts every envelope into a queue that nobody empties, as if the peer had gone
away.  What is told of it is how often each outcome came up.
-/

namespace HubLink

/-- How often each outcome came up in a replay. -/
structure Tally where
  /-- Envelopes read. -/
  decoded : Nat := 0
  /-- Frames with a wrong checksum. -/
  corrupt : Nat := 0
  /-- Bytes skipped because they head no frame of an allowed size. -/
  oversize : Nat := 0
  /-- Sound frames that hold no envelope. -/
  malformed : Nat := 0
  /-- Envelopes of a kind that is not known. -/
  unknown : Nat := 0
  /-- Envelopes that the queue refused. -/
  shed : Nat := 0
  deriving DecidableEq, Repr

namespace Tally

/-- Counts a fault. -/
def addFault (tally : Tally) : Message.Codec.Fault → Tally
  | .corrupt _ _ => { tally with corrupt := tally.corrupt + 1 }
  | .oversize _ => { tally with oversize := tally.oversize + 1 }
  | .unknownKind _ => { tally with unknown := tally.unknown + 1 }
  | .malformed _ | .encode _ => { tally with malformed := tally.malformed + 1 }

/-- Counts an envelope, and whether the queue refused it. -/
def addEnvelope (tally : Tally) (refused : Bool) : Tally :=
  { tally with
    decoded := tally.decoded + 1
    shed := if refused then tally.shed + 1 else tally.shed }

end Tally

/-- A replay under way. -/
structure Replay where
  /-- What is left of the capture. -/
  buffer : List UInt8
  queue : Queue.Delivery
  tally : Tally := {}
  deriving Repr

namespace Replay

/-- Polls the front of the capture; `none` when more bytes are needed. -/
def step? (limit : Nat) (replay : Replay) : Option Replay :=
  match Message.Codec.poll limit replay.buffer with
  | (.ok none, _) => none
  | (.ok (some envelope), rest) =>
    match replay.queue.enqueue envelope with
    | (.ok (), queue) => some ⟨rest, queue, replay.tally.addEnvelope false⟩
    | (.error _, queue) => some ⟨rest, queue, replay.tally.addEnvelope true⟩
  | (.error fault, rest) => some { replay with buffer := rest, tally := replay.tally.addFault fault }

/-- Polls until more bytes are needed, at most `fuel` times. -/
def runWithin (limit : Nat) : (fuel : Nat) → Replay → Replay
  | 0, replay => replay
  | fuel + 1, replay =>
    match step? limit replay with
    | none => replay
    | some next => runWithin limit fuel next

/-- Replays a capture.  Every poll but the last takes a byte, so the length of the capture is fuel
enough. -/
def run (limit : Nat) (config : Queue.Config) (capture : List UInt8) : Replay :=
  runWithin limit capture.length { buffer := capture, queue := { config := config } }

/-- What is told of a replay. -/
def summary (replay : Replay) : String :=
  s!"decoded={replay.tally.decoded} corrupt={replay.tally.corrupt} " ++
    s!"oversize={replay.tally.oversize} malformed={replay.tally.malformed} " ++
    s!"unknown={replay.tally.unknown} shed={replay.tally.shed} " ++
    s!"trailing_bytes={replay.buffer.length} pending={replay.queue.size}"

end Replay

end HubLink
