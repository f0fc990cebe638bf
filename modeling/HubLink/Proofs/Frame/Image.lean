import HubLink.Proofs.Frame.Layout

/-!
# Which bytes are frames

Writing and reading are two separate walks over the bytes of a frame, each with its own idea of the
limit.  They agree to the byte: a reader finds a frame of so many bytes exactly where the bytes that
a writer makes of it stand at the front, as many as it says (`decode_iff_encoded`).  So no two frames
have the same bytes, no frame has two forms, and nothing that is no written frame is taken for one.

A reader that waits does so for a reason.  Every part of a frame that is not all of it leaves it
waiting, and once it answers, bytes that arrive later do not change the answer.
-/

namespace HubLink.Frame

variable {limit size : Nat} {frame : Frame} {buffer payload rest sent : List UInt8}
  {stated : UInt32}

/-! ## Writing -/

theorem encode_eq_ok_iff : frame.encode limit = .ok sent ↔
    frame.payload.length ≤ limit ∧ frame.payload.length < UInt32.size ∧
      sent = layout frame.payload := by
  refine ⟨of_encode_eq_ok, ?_⟩
  rintro ⟨hlimit, hsize, rfl⟩
  exact encode_eq_layout hlimit hsize

theorem exists_encode_iff : (∃ sent, frame.encode limit = .ok sent) ↔
    frame.payload.length ≤ limit ∧ frame.payload.length < UInt32.size := by
  constructor
  · rintro ⟨sent, hencode⟩
    obtain ⟨hlimit, hsize, -⟩ := encode_eq_ok_iff.mp hencode
    exact ⟨hlimit, hsize⟩
  · rintro ⟨hlimit, hsize⟩
    exact ⟨_, encode_eq_layout hlimit hsize⟩

/-- A payload that does not fit is named by its size. -/
theorem encode_of_not_fits
    (hlong : ¬ (frame.payload.length ≤ limit ∧ frame.payload.length < UInt32.size)) :
    frame.encode limit = .error (.size frame.payload.length) := by
  have hbeyond : limit < frame.payload.length ∨ UInt32.size ≤ frame.payload.length := by omega
  rw [encode, if_pos hbeyond]

/-! ## Reading -/

/-- A whole frame stands at the front exactly when its parts do. -/
theorem front_eq_complete_iff : front limit buffer = .complete payload stated rest ↔
    payload.length ≤ limit ∧ payload.length < UInt32.size ∧
      buffer = parts payload stated ++ rest := by
  constructor
  · intro hfront
    obtain ⟨hlimit, b₀, b₁, b₂, b₃, c₀, c₁, c₂, c₃, hdeclared, rfl, rfl⟩ :=
      exists_of_front_complete hfront
    have hsize : payload.length < UInt32.size := by
      rw [← hdeclared]
      exact UInt32.toNat_lt_size _
    have hprefix : UInt32.ofNat payload.length = LittleEndian.word32 b₀ b₁ b₂ b₃ := by
      rw [← hdeclared, UInt32.ofNat_toNat]
    exact ⟨hlimit, hsize, by simp [parts, hprefix]⟩
  · rintro ⟨hlimit, hsize, rfl⟩
    exact front_parts hlimit hsize stated rest

theorem verified_eq_ok_iff : verified payload stated = .ok frame ↔
    checksum payload = stated ∧ frame = ⟨payload⟩ := by
  by_cases hchecksum : checksum payload = stated
  · rw [verified_of_eq hchecksum]
    constructor
    · rintro ⟨⟩
      exact ⟨hchecksum, rfl⟩
    · rintro ⟨-, rfl⟩
      rfl
  · rw [verified_of_ne hchecksum]
    exact ⟨fun h => (by cases h), fun h => absurd h.1 hchecksum⟩

theorem decode_eq_none_iff : decode limit buffer = .ok none ↔ front limit buffer = .incomplete := by
  unfold decode
  cases front limit buffer with
  | incomplete => simp
  | oversize declared => simp
  | complete payload stated rest =>
      simp only [reduceCtorEq, iff_false]
      cases verified payload stated <;> simp [Except.map]

/-- A frame is found where its own bytes stand, and nowhere else. -/
theorem decode_eq_some_iff : decode limit buffer = .ok (some (frame, size)) ↔
    ∃ sent, frame.encode limit = .ok sent ∧ sent <+: buffer ∧ size = sent.length := by
  constructor
  · intro hdecode
    unfold decode at hdecode
    split at hdecode
    · cases hdecode
    · cases hdecode
    next payload stated rest hfront =>
      obtain ⟨hlimit, hsize, rfl⟩ := front_eq_complete_iff.mp hfront
      cases hverified : verified payload stated with
      | error fault =>
          rw [hverified] at hdecode
          cases hdecode
      | ok found =>
          rw [hverified] at hdecode
          cases hdecode
          obtain ⟨rfl, rfl⟩ := verified_eq_ok_iff.mp hverified
          refine ⟨layout payload, encode_eq_layout hlimit hsize, List.prefix_append _ _, ?_⟩
          rw [layout_eq_parts, length_parts, encodedSize, overhead, Nat.add_comm]
  · rintro ⟨sent, hencode, ⟨rest, rfl⟩, rfl⟩
    obtain ⟨hlimit, hsize, rfl⟩ := encode_eq_ok_iff.mp hencode
    rw [decode_layout hlimit hsize, layout_eq_parts, length_parts]

/-- Once there is an answer, later bytes do not change it. -/
theorem decode_append (hanswer : decode limit buffer ≠ .ok none) (more : List UInt8) :
    decode limit (buffer ++ more) = decode limit buffer := by
  have hfront : front limit buffer ≠ .incomplete := fun hwait =>
    hanswer (decode_eq_none_iff.mpr hwait)
  unfold decode
  rw [front_append hfront]
  cases front limit buffer <;> rfl

/-- **Reading finds exactly what writing makes.**  A reader finds a frame of so many bytes exactly
when the frame can be written under the same limit, its bytes stand at the front of the buffer, and
they are as many.  A frame can be written exactly when its payload is within the limit and within 32
bits, and otherwise its size is reported; its bytes are eight more than those of the payload; a part
of them that is not all of them is waited for, under any limit that admits the payload.  And what
arrives behind a buffer that is answered does not change the answer. -/
theorem decode_iff_encoded (limit : Nat) :
    (∀ (frame : Frame) (buffer : List UInt8) (size : Nat),
      decode limit buffer = .ok (some (frame, size)) ↔
        ∃ sent, frame.encode limit = .ok sent ∧ sent <+: buffer ∧ size = sent.length) ∧
    (∀ frame : Frame,
      let fits := frame.payload.length ≤ limit ∧ frame.payload.length < UInt32.size
      ((∃ sent, frame.encode limit = .ok sent) ↔ fits) ∧
        (¬ fits → frame.encode limit = .error (.size frame.payload.length)) ∧
        ∀ sent, frame.encode limit = .ok sent →
          sent.length = frame.payload.length + 8 ∧
          ∀ arrived, arrived <+: sent → arrived ≠ sent →
            ∀ admitting, frame.payload.length ≤ admitting →
              decode admitting arrived = .ok none) ∧
    ∀ buffer, decode limit buffer ≠ .ok none →
      ∀ more, decode limit (buffer ++ more) = decode limit buffer := by
  refine ⟨fun frame buffer size => decode_eq_some_iff, fun frame => ?_,
    fun buffer hanswer more => decode_append hanswer more⟩
  refine ⟨exists_encode_iff, encode_of_not_fits, fun sent hencode => ?_⟩
  obtain ⟨-, hsize, rfl⟩ := encode_eq_ok_iff.mp hencode
  refine ⟨by rw [layout_eq_parts, length_parts], fun arrived hpart hshort admitting hadmits => ?_⟩
  -- the same bytes are written under any limit that admits the payload
  have hsame : frame.encode admitting = .ok (layout frame.payload) :=
    encode_eq_layout hadmits hsize
  exact decode_eq_none_iff.mpr (front_of_part hsame hpart hshort)

/-- A frame of two bytes, the next frame begun behind it; seven of its bytes under a limit that just
admits it; and a payload that exceeds the limit by one. -/
theorem decode_iff_encoded_at_limit :
    let sent : List UInt8 := [2, 0, 0, 0, 1, 2, 0x92, 0x42, 0xCC, 0xB6]
    decode 3 (sent ++ [7]) = .ok (some (⟨[1, 2]⟩, 10)) ∧
      (Frame.mk [1, 2]).encode 3 = .ok sent ∧ sent.length = 10 ∧
      decode 2 (sent.take 7) = .ok none ∧
      (Frame.mk [1, 2, 3, 4]).encode 3 = .error (.size 4) ∧
      ∀ more, decode 3 (sent ++ [7] ++ more) = .ok (some (⟨[1, 2]⟩, 10)) := by
  intro sent
  have hencode : (Frame.mk [1, 2]).encode 3 = .ok sent :=
    encode_eq_ok_iff.mpr ⟨by decide, by decide, by decide +kernel⟩
  obtain ⟨hfound, hwriting, hfinal⟩ := decode_iff_encoded 3
  have hdecode : decode 3 (sent ++ [7]) = .ok (some (⟨[1, 2]⟩, 10)) :=
    (hfound ⟨[1, 2]⟩ (sent ++ [7]) 10).mpr ⟨sent, hencode, List.prefix_append _ _, rfl⟩
  obtain ⟨hlength, hwaits⟩ := (hwriting ⟨[1, 2]⟩).2.2 sent hencode
  refine ⟨hdecode, hencode, hlength, ?_, (hwriting ⟨[1, 2, 3, 4]⟩).2.1 (by decide), fun more => ?_⟩
  · exact hwaits (sent.take 7) (List.take_prefix 7 sent) (by decide) 2 (by decide)
  · rw [hfinal (sent ++ [7]) (by rw [hdecode]; simp) more, hdecode]

end HubLink.Frame
