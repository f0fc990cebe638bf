import HubLink.Message.Codec
import HubLink.Proofs.Frame.Front
import HubLink.Proofs.Stream.Receiver

/-!
# Sessions of the two decoders

Frames and envelopes are polled from the same buffer in the same way, and both ways are receivers in
the sense of `Receiver`.  So the cuts of the stream and the times of the polls matter to neither,
and the envelopes of a session are its frames, read one by one (`finish_independent_of_cuts`).
-/

namespace HubLink

namespace Frame

theorem verified_ne_wait (payload : List UInt8) (stated : UInt32) :
    (verified payload stated).map some ≠ .ok none := by
  unfold verified
  split <;> simp [Except.map]

theorem poll_wait_iff {limit : Nat} {buffer : List UInt8} :
    (poll limit buffer).1 = .ok none ↔ front limit buffer = .incomplete := by
  unfold poll
  split
  next hfront => simp [hfront]
  next declared hfront => simp [hfront]
  next payload stated rest hfront => simp [hfront, verified_ne_wait]

/-- Frames as they are polled from a buffer. -/
def receiver (limit : Nat) : Receiver LinkFault Frame where
  poll := poll limit
  rest_of_wait hwait := by
    rw [poll, poll_wait_iff.mp hwait]
  rest_lt_of_report {buffer} hreport := by
    rw [Ne, poll_wait_iff] at hreport
    unfold poll
    cases hfront : front limit buffer with
    | incomplete => exact absurd hfront hreport
    | oversize declared =>
        obtain ⟨_, b₀, b₁, b₂, b₃, rest, _, _, rfl⟩ := exists_of_front_oversize hfront
        simp
    | complete payload stated rest =>
        obtain ⟨_, b₀, b₁, b₂, b₃, c₀, c₁, c₂, c₃, _, _, rfl⟩ := exists_of_front_complete hfront
        simp
        omega
  poll_append {buffer} hreport more := by
    rw [Ne, poll_wait_iff] at hreport
    unfold poll
    rw [front_append hreport]
    cases hfront : front limit buffer with
    | incomplete => exact absurd hfront hreport
    | oversize declared =>
        obtain ⟨_, b₀, b₁, b₂, b₃, rest, _, _, rfl⟩ := exists_of_front_oversize hfront
        rfl
    | complete payload stated rest => rfl

end Frame

namespace Message.Codec

/-- What is made of one report on a frame. -/
def ofReport : Except LinkFault Frame → Except Fault Envelope
  | .error fault => .error (.ofLink fault)
  | .ok frame => (Envelope.parse frame.payload).mapError .ofEnvelope

theorem report_ofFrame (outcome : Except LinkFault (Option Frame)) :
    Receiver.report (ofFrame outcome) = (Receiver.report outcome).map ofReport := by
  rcases outcome with fault | _ | frame
  · rfl
  · rfl
  · simp only [ofFrame, Receiver.report, ofReport, List.map_cons, List.map_nil]
    cases Envelope.parse frame.payload <;> rfl

theorem ofFrame_wait_iff {outcome : Except LinkFault (Option Frame)} :
    ofFrame outcome = .ok none ↔ outcome = .ok none := by
  rw [← Receiver.report_eq_nil_iff, report_ofFrame, List.map_eq_nil_iff,
    Receiver.report_eq_nil_iff]

/-- Envelopes as they are polled from a buffer. -/
def receiver (limit : Nat) : Receiver Fault Envelope where
  poll := poll limit
  rest_of_wait hwait := (Frame.receiver limit).rest_of_wait (ofFrame_wait_iff.mp hwait)
  rest_lt_of_report hreport :=
    (Frame.receiver limit).rest_lt_of_report fun hwait => hreport (ofFrame_wait_iff.mpr hwait)
  poll_append {buffer} hreport more := by
    have hframe := (Frame.receiver limit).poll_append
      (fun hwait => hreport (ofFrame_wait_iff.mpr hwait)) more
    simp only [Frame.receiver] at hframe
    simp only [poll, hframe]

theorem receiver_follows (limit : Nat) :
    Receiver.Follows ofReport (Frame.receiver limit) (receiver limit) :=
  fun buffer => ⟨report_ofFrame (Frame.poll limit buffer).1, rfl⟩

end Message.Codec

open Receiver (Step appended)

/-- **A stream means the same however it is cut.**  Whatever pieces the bytes arrive in, and
whenever the front is polled in between, a session that is finished by polling until more bytes are
needed reports the frames and faults of the whole stream read at once, and leaves the same bytes;
so does a session that reads envelopes, and its reports are those on the frames, one by one. -/
theorem finish_independent_of_cuts (limit : Nat) (steps : List Step) :
    (Frame.receiver limit).finish steps = (Frame.receiver limit).drain (appended steps) ∧
      (Message.Codec.receiver limit).finish steps =
        (Message.Codec.receiver limit).drain (appended steps) ∧
      (Message.Codec.receiver limit).finish steps =
        (((Frame.receiver limit).finish steps).1.map Message.Codec.ofReport,
          ((Frame.receiver limit).finish steps).2) :=
  ⟨Receiver.finish_eq_drain steps, Receiver.finish_eq_drain steps,
    (Message.Codec.receiver_follows limit).finish_eq steps⟩

end HubLink
