import HubLink.Log.Chunking
import HubLink.Proofs.Bytes.Base64
import HubLink.Proofs.Text.Plain

/-!
# The chunks of a log

A log is cut into parts, and every part travels in a chunk that says which of the parts it is.  The
parts put together are the end of the log, there are few enough of them for 32 bits, and each chunk
gives back its own part, its place and their number.
-/

namespace HubLink.Log

open Message (LogChunk)

/-- The chunk of one of some parts. -/
def chunkOf (jobId nodeId : String) (parts : List (List UInt8)) (index : Nat) : LogChunk :=
  .ofBytes jobId nodeId (UInt32.ofNat index) (UInt32.ofNat parts.length) (parts.getD index [])

/-! ## Cutting -/

theorem flatten_piecesFrom (size : Nat) {fuel : Nat} {content : List UInt8}
    (hfuel : content.length ≤ fuel) : (piecesFrom size fuel content).flatten = content := by
  induction fuel generalizing content with
  | zero =>
      rw [List.length_eq_zero_iff.mp (Nat.le_zero.mp hfuel)]
      rfl
  | succ fuel ih =>
      cases content with
      | nil => rfl
      | cons first rest =>
          have hrest : ((first :: rest).drop (size + 1)).length ≤ fuel := by
            rw [List.length_drop]
            rw [List.length_cons] at hfuel ⊢
            omega
          rw [piecesFrom, List.flatten_cons, ih hrest]
          · exact List.take_append_drop (size + 1) (first :: rest)
          · exact fun h => by cases h

theorem length_piecesFrom_le (size fuel : Nat) (content : List UInt8) :
    (piecesFrom size fuel content).length ≤ content.length := by
  induction fuel generalizing content with
  | zero => exact Nat.zero_le _
  | succ fuel ih =>
      cases content with
      | nil => exact Nat.le_refl 0
      | cons first rest =>
          have hrest := ih ((first :: rest).drop (size + 1))
          rw [piecesFrom, List.length_cons]
          · rw [List.length_drop] at hrest
            rw [List.length_cons] at hrest ⊢
            omega
          · exact fun h => by cases h

section

variable (size : Nat) (log : List UInt8) (maxBytes : UInt32)

/-- The parts put together are the end of the log. -/
theorem flatten_parts : (parts size log maxBytes).flatten = tail log maxBytes.toNat := by
  have hpieces : (pieces size (tail log maxBytes.toNat)).flatten = tail log maxBytes.toNat :=
    flatten_piecesFrom _ (Nat.le_refl _)
  unfold parts
  split
  next hnone =>
    rw [hnone] at hpieces
    exact hpieces
  next => exact hpieces

/-- There is always a part, even of an empty log. -/
theorem parts_ne_nil : parts size log maxBytes ≠ [] := by
  unfold parts
  split
  next => exact List.cons_ne_nil _ _
  next hsome => exact hsome

/-- The number of the parts fits into 32 bits, since the number of bytes does. -/
theorem length_parts_lt : (parts size log maxBytes).length < UInt32.size := by
  have hpieces := length_piecesFrom_le (size - 1) (tail log maxBytes.toNat).length
    (tail log maxBytes.toNat)
  have htail : (tail log maxBytes.toNat).length ≤ maxBytes.toNat := by
    unfold tail
    rw [List.length_drop]
    omega
  have hbytes : maxBytes.toNat < UInt32.size := maxBytes.toNat_lt
  unfold parts
  split
  next => decide
  next =>
    unfold pieces
    omega

end

/-! ## What the chunks say -/

/-- Chunks carry the parts of a log: there is one chunk for each part, and it says which part it has
and of how many. -/
structure Carry (job : String) (parts : List (List UInt8)) (sent : List LogChunk) : Prop where
  length_eq : sent.length = parts.length
  jobId_eq : ∀ chunk ∈ sent, chunk.jobId = job
  total_eq : ∀ chunk ∈ sent, chunk.totalChunks.toNat = parts.length
  index_lt : ∀ chunk ∈ sent, chunk.chunkIndex.toNat < parts.length
  content_eq : ∀ chunk ∈ sent, chunk.content = .ok (parts.getD chunk.chunkIndex.toNat [])
  exists_index : ∀ index < parts.length, ∃ chunk ∈ sent, chunk.chunkIndex.toNat = index
  eq_of_index : ∀ chunk ∈ sent, ∀ other ∈ sent, chunk.chunkIndex = other.chunkIndex → chunk = other

variable {jobId nodeId : String} {parts : List (List UInt8)} {index : Nat}

theorem index_chunkOf (hparts : parts.length < UInt32.size) (hindex : index < parts.length) :
    (chunkOf jobId nodeId parts index).chunkIndex.toNat = index :=
  UInt32.toNat_ofNat_of_lt (Nat.lt_trans hindex hparts)

/-- The bytes that a chunk was made of come back from it. -/
theorem content_ofBytes (jobId nodeId : String) (index total : UInt32) (content : List UInt8) :
    (LogChunk.ofBytes jobId nodeId index total content).content = .ok content := by
  unfold LogChunk.ofBytes LogChunk.content
  rw [Text.bytes_ofBytes fun byte hbyte => Base64.lt_of_mem_encode hbyte, Base64.decode_encoded]

theorem content_chunkOf (jobId nodeId : String) (parts : List (List UInt8)) (index : Nat) :
    (chunkOf jobId nodeId parts index).content = .ok (parts.getD index []) :=
  content_ofBytes _ _ _ _ _

theorem carry_chunkOf (jobId nodeId : String) (hparts : parts.length < UInt32.size) :
    Carry jobId parts ((List.range parts.length).map (chunkOf jobId nodeId parts)) where
  length_eq := by rw [List.length_map, List.length_range]
  jobId_eq := List.forall_mem_map.mpr fun _ _ => rfl
  total_eq := List.forall_mem_map.mpr fun _ _ => UInt32.toNat_ofNat_of_lt hparts
  index_lt := List.forall_mem_map.mpr fun index hindex => by
    have hlt := List.mem_range.mp hindex
    rwa [index_chunkOf hparts hlt]
  content_eq := List.forall_mem_map.mpr fun index hindex => by
    rw [index_chunkOf hparts (List.mem_range.mp hindex), content_chunkOf]
  exists_index index hindex :=
    ⟨_, List.mem_map_of_mem (List.mem_range.mpr hindex), index_chunkOf hparts hindex⟩
  eq_of_index := List.forall_mem_map.mpr fun first hfirst =>
    List.forall_mem_map.mpr fun second hsecond hsame => by
      have hindex := congrArg UInt32.toNat hsame
      rw [index_chunkOf hparts (List.mem_range.mp hfirst),
        index_chunkOf hparts (List.mem_range.mp hsecond)] at hindex
      rw [hindex]

/-- The chunks of a log are those of its parts, in order. -/
theorem chunks_eq_map (size : Nat) (jobId nodeId : String) (log : List UInt8) (maxBytes : UInt32) :
    chunks size jobId nodeId log maxBytes =
      (List.range (Log.parts size log maxBytes).length).map
        (chunkOf jobId nodeId (Log.parts size log maxBytes)) := by
  unfold chunks chunkOf
  apply List.ext_getElem
  · simp
  · intro index hindex _
    have hpart : index < (Log.parts size log maxBytes).length := by simpa using hindex
    simp [List.getElem?_eq_getElem hpart]

/-- The chunks of a log carry its parts. -/
theorem carry_chunks (size : Nat) (jobId nodeId : String) (log : List UInt8) (maxBytes : UInt32) :
    Carry jobId (Log.parts size log maxBytes) (chunks size jobId nodeId log maxBytes) := by
  rw [chunks_eq_map]
  exact carry_chunkOf jobId nodeId (length_parts_lt size log maxBytes)

end HubLink.Log
