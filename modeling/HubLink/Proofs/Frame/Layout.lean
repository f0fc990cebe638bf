import HubLink.Proofs.Frame.Front

/-!
# The bytes of a frame

What a sender writes is a prefix, a payload and a trailer, and what a reader makes of a buffer that
starts with three such parts depends only on them: whether the trailer is the checksum of the
payload, and, for a stream, what stands behind (`decode_parts`, `poll_parts`).
-/

namespace HubLink.Frame

open LittleEndian (bytes32)

/-- A prefix for a payload of the given length, some payload, and some trailer. -/
def parts (payload : List UInt8) (stated : UInt32) : List UInt8 :=
  bytes32 (UInt32.ofNat payload.length) ++ payload ++ bytes32 stated

theorem layout_eq_parts (payload : List UInt8) :
    layout payload = parts payload (checksum payload) := rfl

theorem length_parts (payload : List UInt8) (stated : UInt32) :
    (parts payload stated).length = payload.length + 8 := by
  simp only [parts, List.length_append, LittleEndian.length_bytes32]
  omega

/-- Bytes that are as many as those of a frame and begin with its prefix are those of a frame for a
payload of the same length, but for the trailer. -/
theorem exists_parts {payload received : List UInt8}
    (hlength : received.length = (layout payload).length)
    (hstart : received.take 4 = (layout payload).take 4) :
    ∃ damaged stated, received = parts damaged stated ∧ damaged.length = payload.length := by
  rw [layout_eq_parts, length_parts] at hlength
  have hsent : (layout payload).take 4 = bytes32 (UInt32.ofNat payload.length) := by
    rw [layout, List.append_assoc]
    exact List.take_left' rfl
  obtain ⟨c₀, c₁, c₂, c₃, htrailer⟩ :
      ∃ c₀ c₁ c₂ c₃, (received.drop 4).drop payload.length = [c₀, c₁, c₂, c₃] := by
    have hfour : ((received.drop 4).drop payload.length).length = 4 := by
      rw [List.length_drop, List.length_drop]
      omega
    match (received.drop 4).drop payload.length, hfour with
    | [c₀, c₁, c₂, c₃], _ => exact ⟨c₀, c₁, c₂, c₃, rfl⟩
  have hdamaged : ((received.drop 4).take payload.length).length = payload.length := by
    rw [List.length_take, List.length_drop]
    omega
  refine ⟨(received.drop 4).take payload.length, LittleEndian.word32 c₀ c₁ c₂ c₃, ?_, hdamaged⟩
  rw [parts, hdamaged, LittleEndian.bytes32_word32, ← hsent, ← hstart, List.append_assoc,
    ← htrailer, List.take_append_drop, List.take_append_drop]

/-! ## Writing -/

theorem encode_eq_layout {limit : Nat} {payload : List UInt8} (hlimit : payload.length ≤ limit)
    (hsize : payload.length < UInt32.size) : (Frame.mk payload).encode limit = .ok (layout payload) := by
  have hfits : ¬ (limit < payload.length ∨ UInt32.size ≤ payload.length) := by omega
  rw [encode, if_neg hfits]

theorem of_encode_eq_ok {limit : Nat} {payload frame : List UInt8}
    (hencode : (Frame.mk payload).encode limit = .ok frame) :
    payload.length ≤ limit ∧ payload.length < UInt32.size ∧ frame = layout payload := by
  simp only [encode] at hencode
  split at hencode
  · cases hencode
  next hfits =>
    cases hencode
    exact ⟨by omega, by omega, rfl⟩

/-! ## Reading -/

theorem front_parts {limit : Nat} {payload : List UInt8} (hlimit : payload.length ≤ limit)
    (hsize : payload.length < UInt32.size) (stated : UInt32) (rest : List UInt8) :
    front limit (parts payload stated ++ rest) = .complete payload stated rest := by
  obtain ⟨b₀, b₁, b₂, b₃, hprefix, hdeclared⟩ :=
    LittleEndian.exists_bytes32_eq (UInt32.ofNat payload.length)
  obtain ⟨c₀, c₁, c₂, c₃, htrailer, hstated⟩ := LittleEndian.exists_bytes32_eq stated
  have hlength : (LittleEndian.word32 b₀ b₁ b₂ b₃).toNat = payload.length := by
    rw [hdeclared]
    exact UInt32.toNat_ofNat_of_lt' hsize
  have hfront := front_complete hlength hlimit c₀ c₁ c₂ c₃ rest
  rw [hstated] at hfront
  simpa [parts, hprefix, htrailer] using hfront

/-- A frame that has not arrived whole is waited for. -/
theorem front_of_part {limit : Nat} {frame : Frame} {sent arrived : List UInt8}
    (hencode : frame.encode limit = .ok sent) (hpart : arrived <+: sent) (hshort : arrived ≠ sent) :
    front limit arrived = .incomplete := by
  obtain ⟨hlimit, hsize, rfl⟩ := of_encode_eq_ok hencode
  obtain ⟨missing, hsent⟩ := hpart
  have hmissing : missing ≠ [] := by
    rintro rfl
    rw [List.append_nil] at hsent
    exact hshort hsent
  have hwhole := front_parts hlimit hsize (checksum frame.payload) []
  rw [List.append_nil, ← layout_eq_parts, ← hsent] at hwhole
  -- an answer would be final, and what is missing would stand behind a whole frame
  have hfinal : ∀ answer ≠ .incomplete, front limit arrived = answer →
      answer.append missing = .complete frame.payload (checksum frame.payload) [] := by
    rintro answer hanswer rfl
    rw [← hwhole, front_append hanswer]
  cases hfront : front limit arrived with
  | incomplete => rfl
  | oversize declared => cases hfinal _ (by simp) hfront
  | complete payload stated rest =>
      have hrest := (Front.complete.inj (hfinal _ (by simp) hfront)).2.2
      exact absurd (List.append_eq_nil_iff.mp hrest).2 hmissing

theorem decode_parts {limit : Nat} {payload : List UInt8} (hlimit : payload.length ≤ limit)
    (hsize : payload.length < UInt32.size) (stated : UInt32) (rest : List UInt8) :
    decode limit (parts payload stated ++ rest) =
      (verified payload stated).map fun frame => some (frame, frame.encodedSize) := by
  rw [decode, front_parts hlimit hsize]

theorem poll_parts {limit : Nat} {payload : List UInt8} (hlimit : payload.length ≤ limit)
    (hsize : payload.length < UInt32.size) (stated : UInt32) (rest : List UInt8) :
    poll limit (parts payload stated ++ rest) = ((verified payload stated).map some, rest) := by
  rw [poll, front_parts hlimit hsize]

theorem verified_of_eq {payload : List UInt8} {stated : UInt32}
    (hchecksum : checksum payload = stated) : verified payload stated = .ok ⟨payload⟩ := by
  rw [verified, if_pos hchecksum]

theorem verified_of_ne {payload : List UInt8} {stated : UInt32}
    (hchecksum : checksum payload ≠ stated) :
    verified payload stated = .error (.checksum stated (checksum payload)) := by
  rw [verified, if_neg hchecksum]

/-- A reader gets the payload that was sent, whatever stands behind its frame. -/
theorem decode_layout {limit : Nat} {payload : List UInt8} (hlimit : payload.length ≤ limit)
    (hsize : payload.length < UInt32.size) (rest : List UInt8) :
    decode limit (layout payload ++ rest) = .ok (some (⟨payload⟩, payload.length + 8)) := by
  rw [layout_eq_parts, decode_parts hlimit hsize, verified_of_eq rfl]
  simp [Except.map, encodedSize, overhead, Nat.add_comm]

end HubLink.Frame
