import HubLink.Proofs.Log.Chunks

/-!
# Pieces of one size

What is cut comes in pieces of one size, and only the last may be shorter (`Tiles`).  This settles
how many there are, without a look at the content: as many as there are sizes in its length, rounded
up (`Tiles.length_eq`).  The parts of a log are such pieces, unless there is nothing to cut; then the
one part is without bytes.

From this follows all that the chunks of a log say of themselves (`chunks_shape`).
-/

namespace HubLink.Log

open Message (LogChunk)

/-- Pieces of a width.  The last may be shorter but is not empty. -/
inductive Tiles (width : Nat) : List (List UInt8) → Prop where
  | last {piece : List UInt8} (begun : 0 < piece.length) (fits : piece.length ≤ width) :
      Tiles width [piece]
  | cons {piece : List UInt8} {pieces : List (List UInt8)} (full : piece.length = width)
      (rest : Tiles width pieces) : Tiles width (piece :: pieces)

namespace Tiles

variable {width : Nat} {pieces : List (List UInt8)}

theorem ne_nil (htiles : Tiles width pieces) : pieces ≠ [] := by
  cases htiles <;> exact List.cons_ne_nil _ _

/-- There are as many pieces as widths in the content, rounded up. -/
theorem length_eq (htiles : Tiles width pieces) (hwidth : 0 < width) :
    pieces.length = (pieces.flatten.length + width - 1) / width := by
  induction htiles with
  | @last piece begun fits =>
      symm
      rw [List.flatten_singleton, List.length_singleton, Nat.div_eq_iff hwidth]
      omega
  | @cons piece pieces full _ ih =>
      have hmore : (piece :: pieces).flatten.length + width - 1 =
          pieces.flatten.length + width - 1 + width := by
        rw [List.flatten_cons, List.length_append, full]
        omega
      rw [hmore, Nat.add_div_right _ hwidth, ← ih, List.length_cons]

theorem length_of_mem_dropLast (htiles : Tiles width pieces) {piece : List UInt8}
    (hpiece : piece ∈ pieces.dropLast) : piece.length = width := by
  induction htiles with
  | last => cases hpiece
  | cons full rest ih =>
      rw [List.dropLast_cons_of_ne_nil rest.ne_nil] at hpiece
      rcases List.mem_cons.mp hpiece with rfl | hlater
      · exact full
      · exact ih hlater

theorem length_of_mem_getLast? (htiles : Tiles width pieces) {piece : List UInt8}
    (hpiece : piece ∈ pieces.getLast?) : 0 < piece.length ∧ piece.length ≤ width := by
  induction htiles with
  | last begun fits =>
      cases hpiece
      exact ⟨begun, fits⟩
  | cons full rest ih =>
      apply ih
      rwa [List.getLast?_cons_of_ne_nil rest.ne_nil] at hpiece

end Tiles

theorem piecesFrom_nil (size fuel : Nat) : piecesFrom size fuel [] = [] := by
  cases fuel <;> rfl

theorem tiles_piecesFrom (size : Nat) {fuel : Nat} {content : List UInt8}
    (hfuel : content.length ≤ fuel) (hcontent : content ≠ []) :
    Tiles (size + 1) (piecesFrom size fuel content) := by
  induction fuel generalizing content with
  | zero => exact absurd (List.length_eq_zero_iff.mp (Nat.le_zero.mp hfuel)) hcontent
  | succ fuel ih =>
      rw [piecesFrom]
      · by_cases hlast : content.length ≤ size + 1
        · rw [List.drop_eq_nil_of_le hlast, List.take_of_length_le hlast, piecesFrom_nil]
          exact .last (List.length_pos_iff.mpr hcontent) hlast
        · have hrest : (content.drop (size + 1)).length = content.length - (size + 1) :=
            List.length_drop
          apply Tiles.cons
          · rw [List.length_take]
            omega
          · apply ih
            · omega
            · intro hnil
              rw [hnil, List.length_nil] at hrest
              omega
      · exact hcontent

section

variable (size : Nat) (log : List UInt8) (maxBytes : UInt32)

theorem tail_eq_drop :
    tail log maxBytes.toNat = log.drop (log.length - min log.length maxBytes.toNat) := by
  have hcount : log.length - maxBytes.toNat =
      log.length - min log.length maxBytes.toNat := by omega
  rw [tail, hcount]

theorem length_tail : (tail log maxBytes.toNat).length = min log.length maxBytes.toNat := by
  rw [tail, List.length_drop]
  omega

/-- The parts of a log tile its end, unless nothing of it is sent. -/
theorem parts_cases :
    min log.length maxBytes.toNat = 0 ∧ parts size log maxBytes = [[]] ∨
      Tiles (max 1 size) (parts size log maxBytes) := by
  by_cases hnone : tail log maxBytes.toNat = []
  · refine .inl ⟨?_, ?_⟩
    · rw [← length_tail, hnone, List.length_nil]
    · rw [parts, hnone]
      rfl
  · have hpieces := tiles_piecesFrom (size - 1) (Nat.le_refl _) hnone
    have hwidth : size - 1 + 1 = max 1 size := by omega
    rw [hwidth] at hpieces
    refine .inr ?_
    unfold parts
    split
    next hnil => exact absurd hnil hpieces.ne_nil
    next => exact hpieces

theorem length_parts : (parts size log maxBytes).length =
    max 1 ((min log.length maxBytes.toNat + max 1 size - 1) / max 1 size) := by
  have hwidth : 0 < max 1 size := Nat.lt_of_lt_of_le Nat.one_pos (Nat.le_max_left 1 size)
  rcases parts_cases size log maxBytes with ⟨hzero, hparts⟩ | htiles
  · have hless : 0 + max 1 size - 1 < max 1 size := by omega
    rw [hparts, hzero, Nat.div_eq_of_lt hless]
    rfl
  · have hone : 1 ≤ (parts size log maxBytes).length := List.length_pos_iff.mpr htiles.ne_nil
    rw [← length_tail, ← flatten_parts size, ← htiles.length_eq hwidth, Nat.max_eq_right hone]

variable {size log maxBytes} {part : List UInt8}

theorem length_of_mem_dropLast_parts (hpart : part ∈ (parts size log maxBytes).dropLast) :
    part.length = max 1 size := by
  rcases parts_cases size log maxBytes with ⟨-, hparts⟩ | htiles
  · rw [hparts] at hpart
    cases hpart
  · exact htiles.length_of_mem_dropLast hpart

theorem length_of_mem_getLast?_parts (hpart : part ∈ (parts size log maxBytes).getLast?) :
    part.length ≤ max 1 size ∧ (part.length = 0 ↔ min log.length maxBytes.toNat = 0) := by
  rcases parts_cases size log maxBytes with ⟨hzero, hparts⟩ | htiles
  · rw [hparts] at hpart
    cases hpart
    exact ⟨Nat.zero_le _, fun _ => hzero, fun _ => rfl⟩
  · obtain ⟨hbegun, hfits⟩ := htiles.length_of_mem_getLast? hpart
    have hkept : part.length ≤ min log.length maxBytes.toNat := by
      rw [← length_tail, ← flatten_parts size]
      exact (List.sublist_flatten_of_mem (List.mem_of_getLast? hpart)).length_le
    exact ⟨hfits, by omega⟩

end

/-! ## What the chunks say -/

theorem complete_chunkOf {jobId nodeId : String} {parts : List (List UInt8)} {index : Nat}
    (hparts : parts.length < UInt32.size) (hindex : index < parts.length) :
    (chunkOf jobId nodeId parts index).complete = true ↔ index + 1 = parts.length := by
  have htotal : (UInt32.ofNat parts.length).toNat = parts.length :=
    UInt32.toNat_ofNat_of_lt hparts
  have hplace : (UInt32.ofNat index).toNat = index :=
    UInt32.toNat_ofNat_of_lt (Nat.lt_trans hindex hparts)
  rw [chunkOf, LogChunk.ofBytes, beq_iff_eq, htotal, hplace]

theorem map_content_chunkOf (jobId nodeId : String) (parts : List (List UInt8)) :
    ((List.range parts.length).map (chunkOf jobId nodeId parts)).map LogChunk.content =
      parts.map .ok := by
  apply List.ext_getElem
  · simp
  · intro index hindex hpart
    rw [List.length_map] at hpart
    simp only [List.getElem_map, List.getElem_range, content_chunkOf]
    rw [List.getD_eq_getElem?_getD, List.getElem?_eq_getElem hpart, Option.getD_some]

/-- **What the chunks of a log say, and what is in them.**  They are numbered from zero, know how
many there are, and the last of them is marked as such.  All but the last have the chunk size; the
last has a byte at least, unless there is none to send; together they are the end of the log. -/
theorem chunks_shape (size : Nat) (jobId nodeId : String) (log : List UInt8) (maxBytes : UInt32) :
    let sent := chunks size jobId nodeId log maxBytes
    let width := max 1 size
    let kept := min log.length maxBytes.toNat
    sent.length = max 1 ((kept + width - 1) / width) ∧
    (∀ index (_ : index < sent.length),
      sent[index].chunkIndex.toNat = index ∧ sent[index].totalChunks.toNat = sent.length ∧
        sent[index].jobId = jobId ∧ sent[index].nodeId = nodeId ∧
        (sent[index].complete = true ↔ index + 1 = sent.length)) ∧
    ∃ contents : List (List UInt8), sent.map LogChunk.content = contents.map .ok ∧
      (∀ content ∈ contents.dropLast, content.length = width) ∧
      (∀ content ∈ contents.getLast?,
        content.length ≤ width ∧ (content.length = 0 ↔ kept = 0)) ∧
      contents.flatten = log.drop (log.length - kept) := by
  intro sent width kept
  have hsmall := length_parts_lt size log maxBytes
  have hsent : sent = (List.range (parts size log maxBytes).length).map
      (chunkOf jobId nodeId (parts size log maxBytes)) := chunks_eq_map ..
  have hlength : sent.length = (parts size log maxBytes).length := by
    rw [hsent, List.length_map, List.length_range]
  refine ⟨?_, ?_, parts size log maxBytes, ?_, ?_, ?_, ?_⟩
  · rw [hlength, length_parts]
  · intro index hindex
    have hchunk : sent[index] = chunkOf jobId nodeId (parts size log maxBytes) index := by
      simp only [hsent, List.getElem_map, List.getElem_range]
    rw [hlength] at hindex ⊢
    rw [hchunk]
    exact ⟨index_chunkOf hsmall hindex, UInt32.toNat_ofNat_of_lt hsmall, rfl, rfl,
      complete_chunkOf hsmall hindex⟩
  · rw [hsent, map_content_chunkOf]
  · intro content hcontent
    exact length_of_mem_dropLast_parts hcontent
  · intro content hcontent
    exact length_of_mem_getLast?_parts hcontent
  · rw [flatten_parts, tail_eq_drop]

/-- Ten bytes, of which the last seven are sent by threes. -/
theorem chunks_shape_sevenByThrees :
    let sent := chunks 3 "j" "n" [0, 1, 2, 3, 4, 5, 6, 7, 8, 9] 7
    sent.length = 3 ∧
      (∃ _ : 2 < sent.length, sent[2].complete = true) ∧
      sent.map (fun chunk => chunk.content.toOption) =
        [some [3, 4, 5], some [6, 7, 8], some [9]] := by
  intro sent
  obtain ⟨hnumber, hlabels, -⟩ := chunks_shape 3 "j" "n" [0, 1, 2, 3, 4, 5, 6, 7, 8, 9] 7
  have hlast : 2 < sent.length := by
    rw [hnumber]
    decide
  exact ⟨hnumber, ⟨hlast, (hlabels 2 hlast).2.2.2.2.mpr hnumber.symm⟩, by decide +kernel⟩

end HubLink.Log
