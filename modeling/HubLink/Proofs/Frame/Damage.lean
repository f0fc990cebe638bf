import HubLink.Message.Codec
import HubLink.Proofs.Checksum.Burst
import HubLink.Proofs.Frame.Layout

/-!
# Damage behind the length prefix

A burst of up to four bytes that spares the length prefix never goes unnoticed, wherever it falls:
inside the payload, inside the trailer, or across the border between them.

The border is why the argument is about the payload *together with* its trailer.  Both sides of the
reader's comparison may change there, but `register_trailer_iff` turns the comparison into one
statement on the register after all of the bytes, and `foldl_absorb_ne` says that a burst changes
that register.
-/

namespace HubLink.Frame

open Checksum (Burst)
open LittleEndian (bytes32)

/-- A damaged frame still has the three parts of a frame of the same size, and its trailer is not
the checksum of its payload. -/
theorem exists_parts_of_burst {payload received : List UInt8} {start : Nat} (hstart : 4 ≤ start)
    (hburst : Burst start (layout payload) received) :
    ∃ damaged stated, received = parts damaged stated ∧ damaged.length = payload.length ∧
      checksum damaged ≠ stated := by
  obtain ⟨damaged, stated, rfl, hdamaged⟩ :=
    exists_parts hburst.length_eq (hburst.take_eq hstart)
  refine ⟨damaged, stated, rfl, hdamaged, fun hsame => ?_⟩
  have hbody : ∀ (content : List UInt8) (trailer : UInt32),
      (parts content trailer).drop 4 = content ++ bytes32 trailer := by
    intro content trailer
    rw [parts, List.append_assoc]
    exact List.drop_left' rfl
  have hafter := hburst.drop hstart
  rw [layout_eq_parts, hbody, hbody] at hafter
  -- both trailers would be right, and the register would not notice the burst
  obtain ⟨c₀, c₁, c₂, c₃, htrailer, hstated⟩ := LittleEndian.exists_bytes32_eq stated
  obtain ⟨s₀, s₁, s₂, s₃, hsent, hchecksum⟩ := LittleEndian.exists_bytes32_eq (checksum payload)
  rw [hsent, htrailer] at hafter
  refine Checksum.foldl_absorb_ne hafter ?_ 0xFFFFFFFF ?_
  · rw [List.length_append]
    exact Nat.le_add_left 4 _
  · rw [(Checksum.register_trailer_iff damaged c₀ c₁ c₂ c₃).mpr (hsame.trans hstated.symm),
      (Checksum.register_trailer_iff payload s₀ s₁ s₂ s₃).mpr hchecksum.symm]

/-- **Every burst behind the length prefix is detected.**  A frame that was sent within the limit
arrives with at least one byte changed, all changes within four places behind the prefix.  Then it
still splits into a prefix for the same length, a payload and a trailer, and both readers report the
trailer and the checksum of the payload that arrived, which differ; the streaming reader leaves what
stands behind the frame. -/
theorem burst_detected {limit : Nat} {payload : List UInt8} (hlimit : payload.length ≤ limit)
    (hsize : payload.length < UInt32.size) :
    ∃ sent, (Frame.mk payload).encode limit = .ok sent ∧
      ∀ received start, 4 ≤ start → Burst start sent received →
        ∃ damaged stated,
          received = bytes32 (UInt32.ofNat payload.length) ++ damaged ++ bytes32 stated ∧
          damaged.length = payload.length ∧ stated ≠ checksum damaged ∧
          ∀ rest,
            decode limit (received ++ rest) = .error (.checksum stated (checksum damaged)) ∧
            poll limit (received ++ rest) = (.error (.checksum stated (checksum damaged)), rest) ∧
            Message.Codec.decode limit (received ++ rest) =
              .error (.corrupt stated (checksum damaged)) := by
  refine ⟨layout payload, encode_eq_layout hlimit hsize, ?_⟩
  intro received start hstart hburst
  obtain ⟨damaged, stated, rfl, hlength, hne⟩ := exists_parts_of_burst hstart hburst
  refine ⟨damaged, stated, by rw [parts, hlength], hlength, hne.symm, fun rest => ?_⟩
  rw [← hlength] at hlimit hsize
  have hdecode := decode_parts hlimit hsize stated rest
  rw [verified_of_ne hne] at hdecode
  refine ⟨hdecode, ?_, ?_⟩
  · rw [poll_parts hlimit hsize, verified_of_ne hne]
    rfl
  · rw [Message.Codec.decode, hdecode]
    rfl

/-- The last byte of the payload and the second of the trailer are changed: a burst across the
border. -/
theorem burst_detected_across_border :
    ∃ sent, (Frame.mk [1, 2]).encode 16 = .ok sent ∧
      Burst 5 sent [2, 0, 0, 0, 1, 3, 0x92, 0x43, 0xCC, 0xB6] ∧
      ∃ damaged stated, stated ≠ checksum damaged ∧
        decode 16 ([2, 0, 0, 0, 1, 3, 0x92, 0x43, 0xCC, 0xB6] ++ [7]) =
          .error (.checksum stated (checksum damaged)) := by
  obtain ⟨sent, hencode, hdetected⟩ :=
    burst_detected (show ([1, 2] : List UInt8).length ≤ 16 by decide) (by decide)
  have hsent : sent = [2, 0, 0, 0, 1, 2, 0x92, 0x42, 0xCC, 0xB6] := by
    rw [(of_encode_eq_ok hencode).2.2]
    decide +kernel
  have hburst : Burst 5 sent [2, 0, 0, 0, 1, 3, 0x92, 0x43, 0xCC, 0xB6] := by
    rw [hsent]
    refine ⟨rfl, by decide, fun i hne => ?_⟩
    match i with
    | 0 | 1 | 2 | 3 | 4 | 9 => exact absurd rfl hne
    | 5 | 6 | 7 | 8 => omega
    | i + 10 => exact absurd rfl hne
  obtain ⟨damaged, stated, _, _, hne, hreports⟩ := hdetected _ 5 (by decide) hburst
  exact ⟨sent, hencode, hburst, damaged, stated, hne, (hreports [7]).1⟩

end HubLink.Frame
