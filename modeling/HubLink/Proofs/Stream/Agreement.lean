import HubLink.Proofs.Frame.InPlace
import HubLink.Proofs.Outcome
import HubLink.Proofs.Stream.OneShot

/-!
# The two ways of reading agree

One reader looks at a buffer that somebody else keeps, and says how many bytes the frame occupies
that it found.  The other owns the buffer and takes off it what it is done with.  On every buffer
they give the same outcome, and what the second takes can be told from the answer of the first
(`polls_agree_with_decodes`): as many bytes as the frame occupies, one byte of a prefix that delimits
nothing, and otherwise, whatever is wrong with a whole frame, all of it.

The first reader is compared in the form of `Frame.decodeInPlace`, which takes no step along the
buffer and so has nothing in common with the second but the checksum.
-/

namespace HubLink

namespace Frame

/-- The bytes that a poll takes off a buffer for which the one-shot reader gives this answer.  A
fault that is not about the prefix is one of a whole frame. -/
def taken (buffer : List UInt8) : Except LinkFault (Option (Frame × Nat)) → Nat
  | .ok none => 0
  | .ok (some (_, size)) => size
  | .error (.size _) => 1
  | .error _ => overhead + declared buffer

variable {limit : Nat} {buffer : List UInt8}

/-- Sound or not, a whole frame is taken as a whole. -/
theorem taken_verified (payload : List UInt8) (stated : UInt32)
    (hlength : payload.length = declared buffer) :
    taken buffer ((verified payload stated).map fun frame => some (frame, frame.encodedSize)) =
      overhead + declared buffer := by
  unfold verified
  split
  · exact congrArg (overhead + ·) hlength
  · rfl

/-- What a poll leaves is told by the answer of the one-shot reader. -/
theorem poll_rest (limit : Nat) (buffer : List UInt8) :
    (poll limit buffer).2 = buffer.drop (taken buffer (decode limit buffer)) ∧
      taken buffer (decode limit buffer) ≤ buffer.length := by
  unfold poll decode
  cases hfront : front limit buffer with
  | incomplete => exact ⟨rfl, Nat.zero_le _⟩
  | oversize size =>
      obtain ⟨hlong, -, -⟩ := front_eq_oversize_iff.mp hfront
      exact ⟨List.drop_one.symm, Nat.le_trans (show 1 ≤ overhead by decide) hlong⟩
  | complete payload stated rest =>
      obtain ⟨-, hlong, rfl, rfl, rfl⟩ := front_eq_complete_inPlace_iff.mp hfront
      simp only [taken_verified _ _ (length_declaredPayload hlong), true_and]
      exact hlong

theorem size_of_decode {frame : Frame} {size : Nat}
    (hdecode : decode limit buffer = .ok (some (frame, size))) :
    size = overhead + declared buffer := by
  rw [decode_eq_inPlace, decodeInPlace] at hdecode
  split at hdecode
  · cases hdecode
  split at hdecode
  · cases hdecode
  split at hdecode
  · cases hdecode
  · obtain ⟨found, -, hfound⟩ := map_eq_ok.mp hdecode
    cases hfound
    rfl

end Frame

namespace Message.Codec

/-- The bytes that a poll takes off a buffer for which the one-shot reader of envelopes gives this
answer.  Any outcome but an oversized prefix is one of a whole frame. -/
def taken (buffer : List UInt8) : Except Fault (Option Envelope) → Nat
  | .ok none => 0
  | .error (.oversize _) => 1
  | _ => Frame.overhead + Frame.declared buffer

/-- What the frame holds is nothing to the number of bytes that are taken. -/
theorem taken_ofFrame {buffer : List UInt8} {answer : Except LinkFault (Option (Frame × Nat))}
    (hsize : ∀ frame size, answer = .ok (some (frame, size)) →
      size = Frame.overhead + Frame.declared buffer) :
    taken buffer (ofFrame (answer.map fun found => found.map Prod.fst)) =
      Frame.taken buffer answer := by
  match answer with
  | .error (.checksum _ _) | .error (.size _) | .error (.address _) => rfl
  | .ok none => rfl
  | .ok (some (frame, size)) =>
    rw [hsize frame size rfl]
    simp only [Except.map, Option.map, ofFrame, Frame.taken]
    -- an envelope, a text that is none, or one of an unknown kind
    rcases Envelope.parse frame.payload with (_ | _) | _ <;> rfl

end Message.Codec

/-- **The two ways of reading agree on every buffer.**  A frame is found from ranges of the buffer as
it is found along the way, and a poll gives the answer of the one-shot reader.  It leaves the buffer
as it is when more bytes are needed, takes exactly the bytes that the one-shot reader counts for a
frame, exactly the frame when its checksum is wrong, and exactly one byte of an oversized prefix.
The same holds of the two ways of reading envelopes, and a whole frame is taken there whatever it
holds. -/
theorem polls_agree_with_decodes (limit : Nat) (buffer : List UInt8) :
    Frame.decode limit buffer = Frame.decodeInPlace limit buffer ∧
    (Frame.poll limit buffer =
        ((Frame.decode limit buffer).map fun found => found.map Prod.fst,
          buffer.drop (Frame.taken buffer (Frame.decode limit buffer))) ∧
      Frame.taken buffer (Frame.decode limit buffer) ≤ buffer.length) ∧
    Message.Codec.poll limit buffer =
        (Message.Codec.decode limit buffer,
          buffer.drop (Message.Codec.taken buffer (Message.Codec.decode limit buffer))) ∧
      Message.Codec.taken buffer (Message.Codec.decode limit buffer) ≤ buffer.length := by
  obtain ⟨hrest, hle⟩ := Frame.poll_rest limit buffer
  have htaken : Message.Codec.taken buffer (Message.Codec.decode limit buffer) =
      Frame.taken buffer (Frame.decode limit buffer) :=
    Message.Codec.taken_ofFrame fun frame size hdecode => Frame.size_of_decode hdecode
  refine ⟨Frame.decode_eq_inPlace limit buffer, ⟨?_, hle⟩, ?_, ?_⟩
  · rw [Frame.decode_eq_poll, ← hrest]
  · rw [htaken, ← hrest, Message.Codec.decode_eq_poll]
    rfl
  · rw [htaken]
    exact hle

end HubLink
