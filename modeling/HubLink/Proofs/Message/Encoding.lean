import HubLink.Proofs.Json.Written
import HubLink.Proofs.Message.Printable

/-!
# When encoding fails

An envelope is written value by value, and each reading is checked where it is written.  What comes
of this can be said without the writing: the readings of a payload are looked at in their order, and
the first that is not finite is the fault (`Payload.nonFinite?`).  There is one in a discovery and in
a sample, and there are any number in a batch; no other payload has any, whatever documents and texts
it is made of.

If all are finite there is a text.  It is an object of the five members of the envelope, the written
body among them, and is read back as what was written (`Envelope.Written`).  Then only the length of
the text is left to fail at (`Codec.encode_outcome`).
-/

namespace HubLink.Message

open Binary (NonFinite)

variable {reading : NonFinite}

/-! ## Payloads -/

namespace Payload

/-- The first reading of a payload that is not finite. -/
def nonFinite? : Payload → Option NonFinite
  | .nodeDiscovered body => body.advertisementData.lastReading.nonFinite?
  | .nodeTelemetry body => body.reading.value.nonFinite?
  | .publishTelemetry body => body.telemetry.findSome? fun sample => sample.reading.value.nonFinite?
  | _ => none

theorem toJson_eq_error_iff {payload : Payload} :
    payload.toJson = .error reading ↔ payload.nonFinite? = some reading := by
  cases payload with
  | nodeDiscovered body => exact NodeDiscovered.toJson_eq_error_iff
  | nodeTelemetry body => exact NodeTelemetry.toJson_eq_error_iff
  | publishTelemetry body => exact PublishTelemetry.toJson_eq_error_iff
  | heartbeat | applyNodeConfig | nodeConfigResult | pullNodeLogs | nodeLogChunk
  | twinDesiredUpdate | twinReportedUpdate | connectionStatus | error => simp [toJson, nonFinite?]

/-- Only three kinds of payload have readings. -/
theorem isSome_nonFinite?_iff {payload : Payload} :
    payload.nonFinite?.isSome = true ↔
      (∃ body, payload = .nodeDiscovered body ∧
        body.advertisementData.lastReading.isFinite = false) ∨
      (∃ body, payload = .nodeTelemetry body ∧ body.reading.value.isFinite = false) ∨
      ∃ body, payload = .publishTelemetry body ∧
        ∃ sample ∈ body.telemetry, sample.reading.value.isFinite = false := by
  cases payload with
  | nodeDiscovered body => simp [nonFinite?, Single.isSome_nonFinite?_iff]
  | nodeTelemetry body => simp [nonFinite?, Double.isSome_nonFinite?_iff]
  | publishTelemetry body =>
      simp [nonFinite?, List.isSome_findSome?, Double.isSome_nonFinite?_iff]
  | heartbeat | applyNodeConfig | nodeConfigResult | pullNodeLogs | nodeLogChunk
  | twinDesiredUpdate | twinReportedUpdate | connectionStatus | error => simp [nonFinite?]

end Payload

/-! ## Envelopes -/

namespace Envelope

variable {envelope : Envelope} {text : List UInt8}

theorem print_eq_error_iff :
    envelope.print = .error reading ↔ envelope.payload.nonFinite? = some reading :=
  calc envelope.print = .error reading
    _ ↔ envelope.payload.toJson = .error reading := bind_pure_eq_error_iff
    _ ↔ envelope.payload.nonFinite? = some reading := Payload.toJson_eq_error_iff

/-- The text of an envelope with the given body: the compact form of an object of five members.  If
the documents in the envelope are well formed, so is the object, and the envelope is read back from
the text, its null documents aside, unless the text nests too deep. -/
structure Written (envelope : Envelope) (body : Json) (text : List UInt8) : Prop where
  body_eq : envelope.payload.toJson = .ok body
  print_eq : envelope.print = .ok text
  text_eq : text = Json.print (.object
    [("version", .string envelope.version), ("type", .string envelope.kind.name),
      ("correlationId", .string envelope.correlationId),
      ("timestamp", .integer envelope.timestamp.toInt), ("payload", body)])
  object : envelope.WellFormed → Json.ObjectText
    [("version", Json.literal envelope.version), ("type", Json.literal envelope.kind.name),
      ("correlationId", Json.literal envelope.correlationId),
      ("timestamp", Text.decimalInt envelope.timestamp.toInt), ("payload", Json.print body)] text
  parse_eq : envelope.WellFormed → parse text =
    if Json.nesting text ≤ 127 then .ok envelope.withoutNulls else .error (.malformed .malformed)

theorem written_of_print (hprint : envelope.print = .ok text) :
    ∃ body, envelope.Written body text := by
  obtain ⟨body, hbody, htext⟩ := bind_eq_ok.mp hprint
  have htext := (Except.ok.inj htext).symm
  have hobject (hwell : envelope.WellFormed) :
      Json.ObjectText ((envelope.fields body).map fun m => (m.1, Json.print m.2)) text := by
    have hmembers : ∀ m ∈ envelope.fields body, Json.WellFormed m.2 := by
      simp only [fields, List.forall_mem_cons]
      exact ⟨trivial, trivial, trivial, (@Json.fits_i64 0 envelope.timestamp).1,
        wellFormed_toJson hwell hbody, List.forall_mem_nil _⟩
    rw [htext, ← Json.TextRecord.printFields_print]
    exact Json.objectText_printFields
      (List.forall_mem_map.mpr fun m hm => Json.isValue_print m.2 (hmembers m hm))
  exact ⟨body, hbody, hprint, htext, hobject, fun hwell => parse_print hwell hprint⟩

end Envelope

namespace Codec

variable {envelope : Envelope}

theorem Fault.message_encode (reading : NonFinite) :
    (Fault.encode reading).message =
      "envelope encoding failed: non-finite reading " ++ reading.name :=
  calc (Fault.encode reading).message
    _ = "envelope encoding failed: " ++ ("non-finite reading " ++ reading.name) := rfl
    _ = "envelope encoding failed: " ++ "non-finite reading " ++ reading.name :=
      (String.append_assoc ..).symm
    _ = "envelope encoding failed: non-finite reading " ++ reading.name := rfl

/-- A fault at a reading is the only one that comes before the length is looked at. -/
theorem encode_eq_encode_error_iff {limit : Nat} {reading : NonFinite} :
    encode limit envelope = .error (.encode reading) ↔ envelope.print = .error reading := by
  cases hprint : envelope.print with
  | error found =>
      rw [encode_eq_error hprint]
      simp
  | ok text =>
      rw [encode_of_print hprint]
      split <;> simp

/-- **How encoding comes out.**  It fails at a reading exactly if one is not finite, in a discovery,
a sample or a batch, and names the first; nothing else in a payload makes it fail.  Otherwise the
text of the envelope is written, and either its size is reported, because it exceeds the limit or the
length prefix, or it is framed. -/
theorem encode_outcome (limit : Nat) (envelope : Envelope) :
    (∀ reading, encode limit envelope = .error (.encode reading) ↔
      envelope.payload.nonFinite? = some reading) ∧
    (envelope.payload.nonFinite? = none ↔ ∃ body text, envelope.Written body text ∧
      encode limit envelope =
        if limit < text.length ∨ UInt32.size ≤ text.length then .error (.oversize text.length)
        else .ok (Frame.layout text)) ∧
    (envelope.payload.nonFinite?.isSome = true ↔
      (∃ body, envelope.payload = .nodeDiscovered body ∧
        body.advertisementData.lastReading.isFinite = false) ∨
      (∃ body, envelope.payload = .nodeTelemetry body ∧ body.reading.value.isFinite = false) ∨
      ∃ body, envelope.payload = .publishTelemetry body ∧
        ∃ sample ∈ body.telemetry, sample.reading.value.isFinite = false) ∧
    ∀ reading, (Fault.encode reading).message =
      "envelope encoding failed: non-finite reading " ++ reading.name := by
  refine ⟨?_, ?_, Payload.isSome_nonFinite?_iff, Fault.message_encode⟩
  · intro reading
    exact encode_eq_encode_error_iff.trans Envelope.print_eq_error_iff
  · rw [← exists_ok_iff fun _ => Envelope.print_eq_error_iff]
    constructor
    · rintro ⟨text, hprint⟩
      obtain ⟨body, hwritten⟩ := Envelope.written_of_print hprint
      exact ⟨body, text, hwritten, encode_of_print hprint limit⟩
    · rintro ⟨_, text, hwritten, -⟩
      exact ⟨text, hwritten.print_eq⟩

/-- Of two readings that are not finite the first is named, and under a limit that nothing fits. -/
example :
    let sample (bits : UInt64) : NodeTelemetry :=
      ⟨"n", none, ⟨0, ⟨bits⟩, "C", ⟨0⟩⟩, ⟨3000, 80⟩, [], -60⟩
    let batch : PublishTelemetry :=
      ⟨[sample 0, sample 0xFFF0000000000000, sample 0x7FF8000000000000], 0⟩
    encode 0 ⟨"1.0.0", "c", 0, .publishTelemetry batch⟩ =
      .error (.encode (.infinity true)) := by
  decide +kernel

end Codec

end HubLink.Message
