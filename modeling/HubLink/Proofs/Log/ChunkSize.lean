import HubLink.Message.Stamp
import HubLink.Proofs.Json.TextSize
import HubLink.Proofs.Log.Tiling
import HubLink.Proofs.Message.RoundTrip

/-!
# Chunks fit into frames

An export is of no use if one of its frames is refused for its size, so the size of a chunk has to be
known before the log is.  Its bytes grow by a third in base64, rounded up to whole groups, and none of
them is escaped.  The texts around them come from elsewhere and may be all controls, six bytes each
when they are escaped.  All else is names, marks and numbers of bounded width, and takes no more than
256 bytes (`chunk_frames_fit`).
-/

namespace HubLink.Log

open Json (literal memberSize membersSize)
open Message (Envelope LogChunk Stamp)
open Message.Codec (encode)

/-- The bytes of some texts. -/
def textBytes (texts : List String) : Nat :=
  (texts.map fun text => (Text.bytes text).length).sum

/-- The room for the text of a chunk of at most `size` bytes, with the texts that are written beside
them. -/
def chunkRoom (size : Nat) (texts : List String) : Nat :=
  256 + 4 * ((size + 2) / 3) + 6 * textBytes texts

/-! ## The bytes of a chunk -/

section

variable {size : Nat} {log : List UInt8} {maxBytes : UInt32} {jobId nodeId : String}

theorem length_le_of_mem_parts {part : List UInt8} (hpart : part ∈ parts size log maxBytes) :
    part.length ≤ max 1 size := by
  rw [← List.dropLast_concat_getLast (parts_ne_nil size log maxBytes), List.mem_append,
    List.mem_singleton] at hpart
  rcases hpart with hfront | rfl
  · exact Nat.le_of_eq (length_of_mem_dropLast_parts hfront)
  · exact (length_of_mem_getLast?_parts (List.getLast?_eq_some_getLast _)).1

theorem exists_part_of_mem_chunks {chunk : LogChunk}
    (hchunk : chunk ∈ chunks size jobId nodeId log maxBytes) :
    ∃ index total, ∃ part ∈ parts size log maxBytes,
      chunk = .ofBytes jobId nodeId index total part := by
  obtain ⟨⟨part, index⟩, hpart, rfl⟩ := List.mem_map.mp hchunk
  exact ⟨_, _, part, List.fst_mem_of_mem_zipIdx hpart, rfl⟩

end

/-- Base64 text needs no escapes. -/
theorem length_literal_encode (content : List UInt8) :
    (literal (Text.ofBytes (Base64.encode content))).length =
      4 * ((content.length + 2) / 3) + 2 := by
  have hbytes : Text.bytes (Text.ofBytes (Base64.encode content)) = Base64.encode content :=
    Text.bytes_ofBytes fun _ => Base64.lt_of_mem_encode
  have hplain : ∀ n < 64, Json.IsUnescaped (Base64.symbol n) := by
    unfold Json.IsUnescaped
    decide
  have hpad : Json.IsUnescaped Base64.pad := by
    unfold Json.IsUnescaped
    decide
  rw [Json.length_literal_of_isUnescaped, hbytes, Base64.length_encode]
  rw [hbytes]
  exact Base64.forall_mem_encode hplain hpad content

/-! ## The text around them -/

theorem length_print_u32_le (n : UInt32) : (Json.print (.integer n.toNat)).length ≤ 11 := by
  have hn := n.toNat_lt
  have hdigits : (n.toNat : Int).natAbs < 10 ^ 10 := by omega
  exact Json.length_decimalInt_le 10 (by decide) hdigits

theorem length_print_i64_le (n : Int64) : (Json.print (.integer n.toInt)).length ≤ 20 := by
  have hleast := n.le_toInt
  have hmost := n.toInt_lt
  have hdigits : n.toInt.natAbs < 10 ^ 19 := by omega
  exact Json.length_decimalInt_le 19 (by decide) hdigits

theorem print_string (text : String) : Json.print (.string text) = literal text := rfl

/-- A chunk with its bytes in base64. -/
theorem length_print_chunk_le (jobId nodeId : String) (index total : UInt32)
    (content : List UInt8) :
    (Json.print (LogChunk.ofBytes jobId nodeId index total content).toJson).length ≤
      103 + 4 * ((content.length + 2) / 3) + 6 * textBytes [jobId, nodeId] := by
  have hjob := Json.length_literal_le jobId
  have hnode := Json.length_literal_le nodeId
  have hindex := length_print_u32_le index
  have htotal := length_print_u32_le total
  have hdata := length_literal_encode content
  have hcomplete : ∀ complete, (Json.print (.bool complete)).length ≤ 5 := by decide
  have hcomplete := hcomplete (index.toNat + 1 == total.toNat)
  have hnames : (literal "jobId").length + (literal "nodeId").length +
      (literal "chunkIndex").length + (literal "totalChunks").length + (literal "data").length +
        (literal "complete").length = 56 := by decide
  have hobject := Json.length_print_ofMembers_le
    [("jobId", .string jobId), ("nodeId", .string nodeId), ("chunkIndex", .integer index.toNat),
      ("totalChunks", .integer total.toNat),
      ("data", .string (Text.ofBytes (Base64.encode content))),
      ("complete", .bool (index.toNat + 1 == total.toNat))]
  simp only [Json.membersSize_cons, Json.membersSize_nil, memberSize, print_string] at hobject
  simp only [textBytes, List.map_cons, List.map_nil, List.sum_cons, List.sum_nil]
  refine Nat.le_trans hobject ?_
  omega

/-- What is written of an envelope beside its payload. -/
theorem length_print_fields_le (envelope : Envelope) (payload : Json)
    (hkind : envelope.kind = .nodeLogChunk) :
    (Json.print (.object (envelope.fields payload))).length ≤
      102 + (Json.print payload).length +
        6 * textBytes [envelope.version, envelope.correlationId] := by
  have hversion := Json.length_literal_le envelope.version
  have hcorrelation := Json.length_literal_le envelope.correlationId
  have htimestamp := length_print_i64_le envelope.timestamp
  have hkindName : (literal envelope.kind.name).length = 16 := by
    rw [hkind]
    decide
  have hnames : (literal "version").length + (literal "type").length +
      (literal "correlationId").length + (literal "timestamp").length +
        (literal "payload").length = 50 := by decide
  have hobject := Json.length_print_object_le (envelope.fields payload)
  simp only [Envelope.fields, Json.membersSize_cons, Json.membersSize_nil, memberSize,
    print_string] at hobject
  simp only [textBytes, List.map_cons, List.map_nil, List.sum_cons, List.sum_nil]
  refine Nat.le_trans hobject ?_
  omega

/-! ## The frames of an export -/

/-- The text of a chunk's envelope fits into the room for it. -/
theorem exists_print_chunk {size : Nat} {log : List UInt8} {maxBytes : UInt32}
    {jobId nodeId : String} {chunk : LogChunk} (version : String) (stamp : Stamp)
    (hchunk : chunk ∈ chunks size jobId nodeId log maxBytes) :
    ∃ text, (stamp.envelope version (.nodeLogChunk chunk)).print = .ok text ∧
      text.length ≤ chunkRoom size [jobId, nodeId, version, stamp.correlationId] := by
  obtain ⟨index, total, part, hpart, rfl⟩ := exists_part_of_mem_chunks hchunk
  have hlength := length_le_of_mem_parts hpart
  have hbody := length_print_chunk_le jobId nodeId index total part
  have htext := length_print_fields_le
    (stamp.envelope version (.nodeLogChunk (.ofBytes jobId nodeId index total part)))
    (LogChunk.ofBytes jobId nodeId index total part).toJson rfl
  refine ⟨_, rfl, Nat.le_trans htext ?_⟩
  simp only [chunkRoom, textBytes, Stamp.envelope, List.map_cons, List.map_nil, List.sum_cons,
    List.sum_nil] at hbody ⊢
  omega

/-- **Every chunk of an export fits into its frame.**  The text of its envelope takes no more than
256 bytes, four for every three bytes of a chunk, and six for every byte of the texts that come from
elsewhere.  A limit that leaves so much room refuses no chunk; the usual limit refuses none of the
usual size as long as those texts have no more than ten thousand bytes. -/
theorem chunk_frames_fit (size : Nat) (log : List UInt8) (maxBytes : UInt32)
    (jobId nodeId version : String) (stamp : Stamp) :
    ∀ chunk ∈ chunks size jobId nodeId log maxBytes, ∃ text,
      (stamp.envelope version (.nodeLogChunk chunk)).print = .ok text ∧
      text.length ≤ chunkRoom size [jobId, nodeId, version, stamp.correlationId] ∧
      (∀ limit, chunkRoom size [jobId, nodeId, version, stamp.correlationId] ≤ limit →
        chunkRoom size [jobId, nodeId, version, stamp.correlationId] < UInt32.size →
        encode limit (stamp.envelope version (.nodeLogChunk chunk)) =
          .ok (Frame.layout text)) ∧
      (size = defaultChunkSize →
        textBytes [jobId, nodeId, version, stamp.correlationId] ≤ 10000 →
        encode Frame.defaultLimit (stamp.envelope version (.nodeLogChunk chunk)) =
          .ok (Frame.layout text)) := by
  intro chunk hchunk
  obtain ⟨text, hprint, hroom⟩ := exists_print_chunk version stamp hchunk
  have hencode : ∀ limit, chunkRoom size [jobId, nodeId, version, stamp.correlationId] ≤ limit →
      chunkRoom size [jobId, nodeId, version, stamp.correlationId] < UInt32.size →
      encode limit (stamp.envelope version (.nodeLogChunk chunk)) =
        .ok (Frame.layout text) := by
    intro limit hlimit hsize
    have hfits := Nat.le_trans hroom hlimit
    exact Message.Codec.encode_eq_layout hprint hfits (Nat.lt_of_le_of_lt hroom hsize)
  refine ⟨text, hprint, hroom, hencode, ?_⟩
  rintro rfl htexts
  have husual : chunkRoom defaultChunkSize [jobId, nodeId, version, stamp.correlationId] ≤
      Frame.defaultLimit := by
    have hchunk : 256 + 4 * ((defaultChunkSize + 2) / 3) + 6 * 10000 ≤ Frame.defaultLimit := by
      decide
    rw [chunkRoom]
    omega
  exact hencode _ husual (Nat.lt_of_le_of_lt husual (by decide))

/-- A chunk of the usual size under names that are all controls and quotes. -/
theorem chunk_frames_fit_escapes :
    ∃ chunk ∈ chunks defaultChunkSize "\u0001\u0002" "\"" [0xFF, 0, 7] 1000,
      chunkRoom defaultChunkSize ["\u0001\u0002", "\"", "1.0.0", "\\"] ≤ 2000 ∧
      chunkRoom defaultChunkSize ["\u0001\u0002", "\"", "1.0.0", "\\"] < UInt32.size ∧
      textBytes ["\u0001\u0002", "\"", "1.0.0", "\\"] ≤ 10000 ∧
      ∃ frame, encode 2000 (Stamp.envelope ⟨"\\", -1⟩ "1.0.0" (.nodeLogChunk chunk)) =
          .ok frame ∧
        encode Frame.defaultLimit
          (Stamp.envelope ⟨"\\", -1⟩ "1.0.0" (.nodeLogChunk chunk)) = .ok frame := by
  have hparts := parts_ne_nil defaultChunkSize [0xFF, 0, 7] 1000
  obtain ⟨chunk, hchunk, -⟩ := (carry_chunks defaultChunkSize "\u0001\u0002" "\"" [0xFF, 0, 7]
    1000).exists_index 0 (List.length_pos_iff.mpr hparts)
  obtain ⟨text, -, -, hlimit, husual⟩ := chunk_frames_fit defaultChunkSize [0xFF, 0, 7] 1000
    "\u0001\u0002" "\"" "1.0.0" ⟨"\\", -1⟩ chunk hchunk
  have hroom : chunkRoom defaultChunkSize ["\u0001\u0002", "\"", "1.0.0", "\\"] ≤ 2000 := by
    decide
  have hsize : chunkRoom defaultChunkSize ["\u0001\u0002", "\"", "1.0.0", "\\"] < UInt32.size := by
    decide
  have htexts : textBytes ["\u0001\u0002", "\"", "1.0.0", "\\"] ≤ 10000 := by decide
  exact ⟨chunk, hchunk, hroom, hsize, htexts, _, hlimit 2000 hroom hsize, husual rfl htexts⟩

end HubLink.Log
