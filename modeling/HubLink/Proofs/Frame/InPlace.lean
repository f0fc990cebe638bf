import HubLink.Proofs.Bytes.LittleEndian
import HubLink.Proofs.Frame.Front

/-!
# Frames read in place

`Frame.front` walks along a buffer: it takes the prefix off, splits what is left at the declared
length, and looks for a trailer.  The same answers can be had without a walk, from the length of the
buffer and from ranges of it: four bytes at the start say how long the payload is, the payload is the
range behind them, and the trailer the four bytes behind the payload (`front_eq_inPlace`).

So which answer is given is a matter of two comparisons, of the declared length with the limit and
of the length of the buffer with what the declared frame takes (`front_eq_incomplete_iff` and its
neighbours), and the one-shot reader can be written down without any walk (`decode_eq_inPlace`).
-/

namespace HubLink.Frame

open LittleEndian (value)

/-- The payload length that the first four bytes of a buffer stand for. -/
def declared (buffer : List UInt8) : Nat :=
  value (buffer.take lengthPrefixSize)

/-- The range of the declared payload. -/
def declaredPayload (buffer : List UInt8) : List UInt8 :=
  buffer.extract lengthPrefixSize (lengthPrefixSize + declared buffer)

/-- The word in the four bytes behind the declared payload. -/
def declaredTrailer (buffer : List UInt8) : UInt32 :=
  UInt32.ofNat <| value <|
    buffer.extract (lengthPrefixSize + declared buffer) (overhead + declared buffer)

/-- What stands at the front of a receive buffer, from ranges of it. -/
def inPlace (limit : Nat) (buffer : List UInt8) : Front :=
  if buffer.length < overhead then .incomplete
  else if limit < declared buffer then .oversize (declared buffer)
  else if buffer.length < overhead + declared buffer then .incomplete
  else
    .complete (declaredPayload buffer) (declaredTrailer buffer)
      (buffer.drop (overhead + declared buffer))

variable {limit : Nat} {buffer : List UInt8}

theorem declared_cons (b₀ b₁ b₂ b₃ : UInt8) (tail : List UInt8) :
    declared (b₀ :: b₁ :: b₂ :: b₃ :: tail) = (LittleEndian.word32 b₀ b₁ b₂ b₃).toNat :=
  LittleEndian.value_word32 b₀ b₁ b₂ b₃

theorem declared_append (hlong : lengthPrefixSize ≤ buffer.length) (more : List UInt8) :
    declared (buffer ++ more) = declared buffer := by
  rw [declared, declared, List.take_append_of_le_length hlong]

theorem declaredLength?_of_long (hlong : overhead ≤ buffer.length) :
    declaredLength? buffer = some (declared buffer) := by
  rw [overhead] at hlong
  match buffer, hlong with
  | b₀ :: b₁ :: b₂ :: b₃ :: tail, hlong =>
    rw [declared_cons]
    apply declaredLength?_eq
    simp only [List.length_cons] at hlong
    omega

theorem declaredLength?_of_short (hshort : buffer.length < overhead) :
    declaredLength? buffer = none := by
  unfold declaredLength?
  split
  · simp only [overhead, List.length_cons] at hshort
    omega
  · rfl

theorem exists_trailer (hlong : overhead + declared buffer ≤ buffer.length) :
    ∃ c₀ c₁ c₂ c₃ rest,
      buffer.drop (lengthPrefixSize + declared buffer) = c₀ :: c₁ :: c₂ :: c₃ :: rest := by
  have hfour : 4 ≤ (buffer.drop (lengthPrefixSize + declared buffer)).length := by
    rw [List.length_drop, lengthPrefixSize]
    rw [overhead] at hlong
    omega
  generalize buffer.drop (lengthPrefixSize + declared buffer) = tail at hfour ⊢
  iterate 4
    rcases tail with _ | ⟨_, tail⟩
    · simp at hfour
  exact ⟨_, _, _, _, tail, rfl⟩

/-- The trailer stands where the payload ends, and the rest behind it. -/
theorem of_drop_eq {c₀ c₁ c₂ c₃ : UInt8} {rest : List UInt8}
    (hdrop : buffer.drop (lengthPrefixSize + declared buffer) = c₀ :: c₁ :: c₂ :: c₃ :: rest) :
    declaredTrailer buffer = LittleEndian.word32 c₀ c₁ c₂ c₃ ∧
      buffer.drop (overhead + declared buffer) = rest ∧
      overhead + declared buffer ≤ buffer.length := by
  have hwidth : overhead + declared buffer - (lengthPrefixSize + declared buffer) = 4 := by
    rw [overhead, lengthPrefixSize]
    omega
  have hwhole : overhead + declared buffer = lengthPrefixSize + declared buffer + 4 := by
    rw [overhead, lengthPrefixSize]
    omega
  refine ⟨?_, ?_, ?_⟩
  · rw [declaredTrailer, List.extract_eq_take_drop, hdrop, hwidth]
    simp only [List.take_succ_cons, List.take_zero]
    rw [LittleEndian.value_word32, UInt32.ofNat_toNat]
  · rw [hwhole, ← List.drop_drop, hdrop]
    rfl
  · have hlength := congrArg List.length hdrop
    simp only [List.length_drop, List.length_cons] at hlength
    omega

/-- **The front can be read in place.**  Walking along the buffer and looking at ranges of it come to
the same. -/
theorem front_eq_inPlace (limit : Nat) (buffer : List UInt8) :
    front limit buffer = inPlace limit buffer := by
  by_cases hshort : buffer.length < overhead
  · rw [front, declaredLength?_of_short hshort, inPlace, if_pos hshort]
  · rw [front, declaredLength?_of_long (Nat.le_of_not_lt hshort), inPlace, if_neg hshort]
    simp only [List.splitAt_eq, List.drop_drop]
    split
    · rfl
    · split
      next payload c₀ c₁ c₂ c₃ rest hsplit =>
        obtain ⟨rfl, hdrop⟩ := Prod.mk.inj hsplit
        obtain ⟨htrailer, hrest, hlong⟩ := of_drop_eq hdrop
        rw [if_neg (Nat.not_lt.mpr hlong), htrailer, hrest, declaredPayload,
          List.extract_eq_take_drop, Nat.add_sub_cancel_left]
      next hsplit =>
        -- no trailer was found, so the bytes run out before its end
        have hpart : buffer.length < overhead + declared buffer := by
          apply Nat.lt_of_not_le
          intro hlong
          obtain ⟨c₀, c₁, c₂, c₃, rest, hdrop⟩ := exists_trailer hlong
          exact hsplit _ c₀ c₁ c₂ c₃ rest (by rw [hdrop])
        rw [if_pos hpart]

theorem length_declaredPayload (hlong : overhead + declared buffer ≤ buffer.length) :
    (declaredPayload buffer).length = declared buffer := by
  rw [overhead] at hlong
  rw [declaredPayload, List.extract_eq_take_drop, Nat.add_sub_cancel_left, List.length_take,
    List.length_drop, lengthPrefixSize]
  omega

/-! ## When which answer is given -/

theorem front_eq_incomplete_iff : front limit buffer = .incomplete ↔
    buffer.length < overhead ∨
      declared buffer ≤ limit ∧ buffer.length < overhead + declared buffer := by
  rw [front_eq_inPlace, inPlace]
  split
  next hshort => exact ⟨fun _ => .inl hshort, fun _ => rfl⟩
  split
  next hlimit => exact ⟨fun h => (by cases h), fun h => (by omega)⟩
  split
  next hlimit hpart => exact ⟨fun _ => .inr ⟨Nat.le_of_not_lt hlimit, hpart⟩, fun _ => rfl⟩
  next hpart => exact ⟨fun h => (by cases h), fun h => (by omega)⟩

theorem front_eq_oversize_iff {size : Nat} : front limit buffer = .oversize size ↔
    overhead ≤ buffer.length ∧ limit < declared buffer ∧ size = declared buffer := by
  rw [front_eq_inPlace, inPlace]
  split
  next hshort => exact ⟨fun h => (by cases h), fun h => (by omega)⟩
  split
  next hshort hlimit =>
    constructor
    · rintro ⟨⟩
      exact ⟨Nat.le_of_not_lt hshort, hlimit, rfl⟩
    · rintro ⟨-, -, rfl⟩
      rfl
  next hlimit =>
    split <;> exact ⟨fun h => (by cases h), fun h => absurd h.2.1 hlimit⟩

theorem front_eq_complete_inPlace_iff {payload rest : List UInt8} {stated : UInt32} :
    front limit buffer = .complete payload stated rest ↔
      declared buffer ≤ limit ∧ overhead + declared buffer ≤ buffer.length ∧
        payload = declaredPayload buffer ∧ stated = declaredTrailer buffer ∧
        rest = buffer.drop (overhead + declared buffer) := by
  rw [front_eq_inPlace, inPlace]
  split
  next hshort => exact ⟨fun h => (by cases h), fun h => (by omega)⟩
  split
  next hlimit => exact ⟨fun h => (by cases h), fun h => (by omega)⟩
  split
  next hpart => exact ⟨fun h => (by cases h), fun h => (by omega)⟩
  next hlimit hpart =>
    constructor
    · rintro ⟨⟩
      exact ⟨Nat.le_of_not_lt hlimit, Nat.le_of_not_lt hpart, rfl, rfl, rfl⟩
    · rintro ⟨-, -, rfl, rfl, rfl⟩
      rfl

/-- A buffer that could hold the greatest allowed frame is not waited for. -/
theorem length_lt_of_front_incomplete (hfront : front limit buffer = .incomplete) :
    buffer.length < limit + overhead := by
  rcases front_eq_incomplete_iff.mp hfront with hshort | ⟨hlimit, hpart⟩
  · exact Nat.lt_add_left limit hshort
  · omega

/-! ## The one-shot reader -/

/-- Reads one frame from ranges of a buffer, with the number of bytes it occupies; `none` when more
bytes are needed. -/
def decodeInPlace (limit : Nat) (buffer : List UInt8) :
    Except LinkFault (Option (Frame × Nat)) :=
  if buffer.length < overhead then .ok none
  else if limit < declared buffer then .error (.size (declared buffer))
  else if buffer.length < overhead + declared buffer then .ok none
  else
    (verified (declaredPayload buffer) (declaredTrailer buffer)).map fun frame =>
      some (frame, overhead + declared buffer)

theorem decode_eq_inPlace (limit : Nat) (buffer : List UInt8) :
    decode limit buffer = decodeInPlace limit buffer := by
  unfold decode decodeInPlace
  rw [front_eq_inPlace, inPlace]
  by_cases hshort : buffer.length < overhead
  · simp only [if_pos hshort]
  by_cases hlimit : limit < declared buffer
  · simp only [if_neg hshort, if_pos hlimit]
  by_cases hpart : buffer.length < overhead + declared buffer
  · simp only [if_neg hshort, if_neg hlimit, if_pos hpart]
  · simp only [if_neg hshort, if_neg hlimit, if_neg hpart]
    -- a frame that is verified has the declared payload
    have hlength := length_declaredPayload (Nat.le_of_not_lt hpart)
    unfold verified
    split
    · simp only [Except.map, encodedSize, hlength]
    · rfl

end HubLink.Frame
