import HubLink.Frame

/-!
# Frames from a stream

A receiver appends what arrives to one buffer and polls its front.  A whole frame leaves the buffer
whether or not its checksum holds, so that one damaged frame never blocks the next.  An oversized
length prefix delimits nothing: one byte is dropped, and the next poll looks for a header from there.
-/

namespace HubLink.Frame

/-- Polls the front of a receive buffer: the outcome, and what stays in the buffer.  The outcome is
`none` when more bytes are needed. -/
def poll (limit : Nat) (buffer : List UInt8) : Except LinkFault (Option Frame) × List UInt8 :=
  match front limit buffer with
  | .incomplete => (.ok none, buffer)
  | .oversize declared => (.error (.size declared), buffer.tail)
  | .complete payload stated rest => ((verified payload stated).map some, rest)

end HubLink.Frame
