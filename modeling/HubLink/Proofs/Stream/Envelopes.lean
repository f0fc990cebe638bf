import HubLink.Proofs.Message.RoundTrip
import HubLink.Proofs.Stream.Isolation
import Mathlib.Data.List.Forall2

/-!
# Envelopes from a stream

Most kinds of messages have no free-form parts, and neither of the two exceptions to reading an
envelope back can happen to them: there is no explicit null to drop, and the text nests only a few
brackets deep (`Envelope.parse_print_of_plain`).  Such envelopes come out of a stream as they were
framed into it, one for one (`Codec.drain_encoded`).
-/

namespace HubLink.Message

open Json (Fits)

/-- A payload without free-form parts. -/
def Payload.Plain (payload : Payload) : Prop :=
  payload.requiredDocuments = [] ∧ payload.optionalDocuments = []

theorem Payload.Plain.everyDocument {payload : Payload} (hplain : payload.Plain)
    (good : Json → Prop) : payload.EveryDocument good := by
  rw [Payload.EveryDocument, hplain.1, hplain.2]
  exact ⟨List.forall_mem_nil _, List.forall_mem_nil _⟩

theorem Payload.Plain.noNullDocument {payload : Payload} (hplain : payload.Plain) :
    payload.NoNullDocument := by
  rw [Payload.NoNullDocument, hplain.2]
  exact List.forall_mem_nil _

namespace Envelope

theorem parse_print_of_plain {envelope : Envelope} {text : List UInt8}
    (hplain : envelope.payload.Plain) (hprint : envelope.print = .ok text) :
    parse text = .ok envelope := by
  obtain ⟨json, hjson, htext⟩ := bind_eq_ok.mp hprint
  obtain rfl := Except.ok.inj htext
  obtain ⟨budget, hbudget⟩ := exists_budget envelope.payload
  have hfits : Fits bodyBudget json := by
    rw [← hbudget]
    exact Payload.fits_toJson hjson (hplain.everyDocument _)
  rw [parse_print_fields envelope hfits.1, if_pos hfits.2, ofHeader_header envelope hjson,
    withoutNulls_eq_self_iff.mpr hplain.noNullDocument]

end Envelope

namespace Codec

variable {limit : Nat}

/-- A reader takes one frame and goes on behind it. -/
theorem drain_encode {envelope : Envelope} {frame : List UInt8} (hplain : envelope.payload.Plain)
    (hencode : encode limit envelope = .ok frame) (rest : List UInt8) :
    (receiver limit).drain (frame ++ rest) =
      (.ok envelope :: ((receiver limit).drain rest).1, ((receiver limit).drain rest).2) := by
  obtain ⟨text, hprint, hlimit, hsize, rfl⟩ := of_encode_eq_ok hencode
  have hreport : ofReport (.ok ⟨text⟩) = .ok envelope := by
    rw [ofReport, Envelope.parse_print_of_plain hplain hprint]
    rfl
  rw [Frame.layout_eq_parts, (receiver_follows limit).drain_eq, (receiver_follows limit).drain_eq,
    Frame.drain_parts hlimit hsize, Frame.verified_of_eq rfl, List.map_cons, hreport]

/-- **Envelopes come out of a stream as they were framed into it.** -/
theorem drain_encoded {envelopes : List Envelope} {frames : List (List UInt8)}
    (hplain : ∀ envelope ∈ envelopes, envelope.payload.Plain)
    (hencoded : List.Forall₂ (fun envelope frame => encode limit envelope = .ok frame)
      envelopes frames) :
    (receiver limit).drain frames.flatten = (envelopes.map .ok, []) := by
  induction hencoded with
  | nil => exact Receiver.drain_of_wait rfl
  | cons hencode _ ih =>
      obtain ⟨hfirst, hothers⟩ := List.forall_mem_cons.mp hplain
      rw [List.flatten_cons, drain_encode hfirst hencode, ih hothers, List.map_cons]

end Codec

end HubLink.Message
