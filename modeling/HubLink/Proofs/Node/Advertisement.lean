import HubLink.Node.Advertisement
import HubLink.Proofs.Bytes.LittleEndian

/-!
# Advertisements and their bytes

An advertisement is seventeen bytes at least (`exists_decode`), and each of its fields is the bytes
at a fixed place, the lowest byte of a number first (`Placed`).  Nothing is rounded or masked: every
bit of the bytes is in the field, whether it has a meaning or not.

So writing and reading are inverse to each other (`decode_inverts_encode`).  Any seventeen bytes are
those of one advertisement, and the one thing that a record can hold beside them is the signal
strength, which the receiver adds.
-/

namespace HubLink.Node.Advertisement

open LittleEndian (value_word16 value_word32)

/-- The fields of an advertisement are the bytes of a broadcast at their places. -/
structure Placed (received : List UInt8) (adv : Advertisement) : Prop where
  company : LittleEndian.value (received.extract 0 2) = adv.companyId.toNat
  version : received[2]? = some adv.version
  address : received.extract 3 9 = adv.nodeId.bytes
  battery : received[9]? = some adv.batteryPercent
  reading : LittleEndian.value (received.extract 10 14) = adv.lastReading.bits.toNat
  faults : received[14]? = some adv.faultFlags.bits
  counter : LittleEndian.value (received.extract 15 17) = adv.counter.toNat

variable {received : List UInt8} {adv : Advertisement}

/-- Seventeen bytes are enough, whatever they are. -/
theorem exists_decode (hlength : 17 ≤ received.length) : ∃ adv, decode received = some adv := by
  -- byte after byte; the list cannot end before the last of them
  iterate 17
    rcases received with _ | ⟨_, received⟩
    · simp at hlength
  exact ⟨_, rfl⟩

theorem placed_of_decode (hdecode : decode received = some adv) : Placed received adv := by
  unfold decode at hdecode
  split at hdecode
  · cases hdecode
    exact ⟨value_word16 _ _, rfl, rfl, rfl, value_word32 _ _ _ _, rfl, value_word16 _ _⟩
  · cases hdecode

/-! ## There and back -/

@[simp]
theorem length_encode (adv : Advertisement) : adv.encode.length = size := rfl

theorem decode_encode_append (adv : Advertisement) (rest : List UInt8) :
    decode (adv.encode ++ rest) = some { adv with rssi := none } := by
  obtain ⟨company, version, ⟨a₀, a₁, a₂, a₃, a₄, a₅⟩, battery, ⟨reading⟩, ⟨faults⟩, counter, rssi⟩ :=
    adv
  simp only [encode, LittleEndian.bytes16, LittleEndian.bytes32, Address.bytes, List.cons_append,
    List.nil_append, decode, LittleEndian.word16_bytes, LittleEndian.word32_bytes]

theorem encode_of_decode (hdecode : decode received = some adv) :
    adv.rssi = none ∧ adv.encode <+: received := by
  unfold decode at hdecode
  split at hdecode
  next rest =>
    cases hdecode
    refine ⟨rfl, rest, ?_⟩
    simp only [encode, LittleEndian.bytes16_word16, LittleEndian.bytes32_word32, Address.bytes,
      List.cons_append, List.nil_append]
  · cases hdecode

/-- What is read is the record whose bytes stand at the front, as it is without a signal strength. -/
theorem decode_eq_some_iff :
    decode received = some adv ↔ adv.rssi = none ∧ adv.encode = received.take size := by
  constructor
  · intro hdecode
    obtain ⟨hrssi, hprefix⟩ := encode_of_decode hdecode
    exact ⟨hrssi, List.prefix_iff_eq_take.mp hprefix⟩
  · rintro ⟨hrssi, hencode⟩
    have hreceived : adv.encode ++ received.drop size = received := by
      rw [hencode, List.take_append_drop]
    rw [← hreceived, decode_encode_append, ← hrssi]

theorem decode_eq_none_iff : decode received = none ↔ received.length < size := by
  constructor
  · intro hnone
    apply Nat.lt_of_not_le
    intro hlong
    obtain ⟨adv, hdecode⟩ := exists_decode hlong
    rw [hnone] at hdecode
    cases hdecode
  · intro hshort
    cases hdecode : decode received with
    | none => rfl
    | some adv =>
        have hlength := (encode_of_decode hdecode).2.length_le
        rw [length_encode] at hlength
        omega

/-- **Reading an advertisement is the inverse of writing it.**  Bytes are read exactly when there are
seventeen of them.  What is read has no signal strength, is written as the first seventeen bytes and
is the only record of that sort that is, whatever the bytes are; its fields are the bytes at their
places.  What was written is read back with all its fields but the signal strength, whatever stands
behind it; a reading is the same when its bits are. -/
theorem decode_inverts_encode :
    (∀ received, decode received = none ↔ received.length < size) ∧
    (∀ received adv, decode received = some adv ↔
      adv.rssi = none ∧ adv.encode = received.take size) ∧
    (∀ received adv, decode received = some adv → Placed received adv) ∧
    ∀ (adv : Advertisement) rest,
      decode (adv.encode ++ rest) = some { adv with rssi := none } :=
  ⟨fun _ => decode_eq_none_iff, fun _ _ => decode_eq_some_iff, fun _ _ => placed_of_decode,
    decode_encode_append⟩

/-- A battery beyond a hundred percent, a reading that is a NaN with a payload, and a byte that is
not part of the advertisement. -/
example :
    (decode [0x59, 0, 9, 1, 2, 3, 4, 5, 6, 200, 1, 0, 0xA0, 0x7F, 0xFF, 0xFE, 0xFF, 7]).map encode =
      some [0x59, 0, 9, 1, 2, 3, 4, 5, 6, 200, 1, 0, 0xA0, 0x7F, 0xFF, 0xFE, 0xFF] := by
  decide

end HubLink.Node.Advertisement
