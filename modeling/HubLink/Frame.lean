import HubLink.Bytes.LittleEndian
import HubLink.Checksum
import HubLink.LinkFault

/-!
# Frames

A frame is a little-endian payload length of four bytes, the payload, and the payload's checksum of
four bytes.  The length prefix is believed only below a limit, and nothing is said about a buffer
before eight bytes are there, the least that any frame takes.

Every reader of frames starts from `Frame.front`, which says what the front of a buffer holds; the
one-shot reader of this module and the streaming reader differ only in what they do with the answer.
-/

namespace HubLink

/-- A payload as it travels between the processors. -/
structure Frame where
  /-- The bytes the checksum covers. -/
  payload : List UInt8
  deriving DecidableEq, Repr

namespace Frame

/-- The bytes a frame adds to its payload. -/
def overhead : Nat := 8

/-- The bytes of the length prefix. -/
def lengthPrefixSize : Nat := 4

/-- The bytes of the trailing checksum. -/
def checksumSize : Nat := 4

/-- The payload limit that holds unless another is set: 64 KiB. -/
def defaultLimit : Nat := 65536

/-- The size of the whole frame. -/
def encodedSize (frame : Frame) : Nat :=
  overhead + frame.payload.length

/-- The bytes of a frame, whatever its size. -/
def layout (payload : List UInt8) : List UInt8 :=
  LittleEndian.bytes32 (UInt32.ofNat payload.length) ++ payload ++
    LittleEndian.bytes32 (checksum payload)

/-- The frame's bytes, unless the payload exceeds the limit or its length does not fit the prefix. -/
def encode (frame : Frame) (limit : Nat) : Except LinkFault (List UInt8) :=
  let size := frame.payload.length
  if limit < size ∨ UInt32.size ≤ size then .error (.size size) else .ok (layout frame.payload)

/-- What stands at the front of a receive buffer. -/
inductive Front where
  /-- More bytes are needed. -/
  | incomplete
  /-- A length prefix above the limit, which delimits nothing. -/
  | oversize (declared : Nat)
  /-- A whole frame with the checksum it states, and the bytes behind it. -/
  | complete (payload : List UInt8) (stated : UInt32) (rest : List UInt8)
  deriving DecidableEq, Repr

/-- The payload length that a buffer declares, once the least frame could be there. -/
def declaredLength? : List UInt8 → Option Nat
  | b₀ :: b₁ :: b₂ :: b₃ :: _ :: _ :: _ :: _ :: _ =>
    some (LittleEndian.word32 b₀ b₁ b₂ b₃).toNat
  | _ => none

/-- Reads the front of a buffer. -/
def front (limit : Nat) (buffer : List UInt8) : Front :=
  match declaredLength? buffer with
  | none => .incomplete
  | some declared =>
    if limit < declared then .oversize declared
    else
      match (buffer.drop lengthPrefixSize).splitAt declared with
      | (payload, b₀ :: b₁ :: b₂ :: b₃ :: rest) =>
        .complete payload (LittleEndian.word32 b₀ b₁ b₂ b₃) rest
      | _ => .incomplete

/-- The payload, provided it hashes to what its frame states. -/
def verified (payload : List UInt8) (stated : UInt32) : Except LinkFault Frame :=
  if checksum payload = stated then .ok ⟨payload⟩
  else .error (.checksum stated (checksum payload))

/-- Reads one frame from the front of a buffer, with the number of bytes it occupies; `none` when
more bytes are needed. -/
def decode (limit : Nat) (buffer : List UInt8) : Except LinkFault (Option (Frame × Nat)) :=
  match front limit buffer with
  | .incomplete => .ok none
  | .oversize declared => .error (.size declared)
  | .complete payload stated _ =>
    (verified payload stated).map fun frame => some (frame, frame.encodedSize)

end Frame

end HubLink
