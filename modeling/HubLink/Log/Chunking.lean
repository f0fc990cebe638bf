import HubLink.Bytes.Base64
import HubLink.Message.Payload

/-!
# Cutting a log into chunks

A log export is too large for one frame, so it is cut into chunks of a fixed number of bytes, the
last one shorter.  Only the end of a log that is too long is exported, and an empty log still gives
one empty chunk, so that the other side learns that the export is over.
-/

namespace HubLink

open Message (LogChunk)

/-- The chunk with the given bytes; it is complete when it is the last. -/
def Message.LogChunk.ofBytes (jobId nodeId : String) (index total : UInt32)
    (content : List UInt8) : LogChunk where
  jobId := jobId
  nodeId := nodeId
  chunkIndex := index
  totalChunks := total
  data := Text.ofBytes (Base64.encode content)
  complete := index.toNat + 1 == total.toNat

/-- The bytes of a chunk. -/
def Message.LogChunk.content (chunk : LogChunk) : Except Base64.Fault (List UInt8) :=
  Base64.decode (Text.bytes chunk.data)

namespace Log

/-- Log bytes in a chunk, unless another size is set. -/
def defaultChunkSize : Nat := 512

/-- The last `count` bytes of a log. -/
def tail (log : List UInt8) (count : Nat) : List UInt8 :=
  log.drop (log.length - count)

/-- Cuts bytes into pieces of `size + 1` bytes, the last one shorter.  Every piece takes a byte, so
the length of the content is fuel enough. -/
def piecesFrom (size : Nat) : (fuel : Nat) → List UInt8 → List (List UInt8)
  | 0, _ => []
  | _ + 1, [] => []
  | fuel + 1, content =>
    content.take (size + 1) :: piecesFrom size fuel (content.drop (size + 1))

/-- Cuts bytes into pieces of `size` bytes, the last one shorter; a size of zero counts as one. -/
def pieces (size : Nat) (content : List UInt8) : List (List UInt8) :=
  piecesFrom (size - 1) content.length content

/-- The parts that a log is cut into: the pieces of its last `maxBytes` bytes, or a single part
without bytes. -/
def parts (size : Nat) (log : List UInt8) (maxBytes : UInt32) : List (List UInt8) :=
  match pieces size (tail log maxBytes.toNat) with
  | [] => [[]]
  | parts => parts

/-- The chunks of the last `maxBytes` bytes of a log. -/
def chunks (size : Nat) (jobId nodeId : String) (log : List UInt8) (maxBytes : UInt32) :
    List LogChunk :=
  let parts := parts size log maxBytes
  parts.zipIdx.map fun (part, index) =>
    .ofBytes jobId nodeId (UInt32.ofNat index) (UInt32.ofNat parts.length) part

end Log

end HubLink
